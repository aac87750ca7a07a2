import CircuitCompiler.Proofs.Signals

/-!
# Names in place of dotted paths

An expression read as a plain tree: one node for each operator, constant and name, and a dotted path
as a chain of member accesses that nests to the right. On such trees, what lowering does is to put
one name in the place of each outermost member access and to leave every other node as it is.

* `NodeTree.flattened`: that replacement, with `NodeTree.flattened_free`: no member access is left;
* `Expr.tree_lowered`: the tree of a lowered expression;
* `Vhdl.emit_flattens`: the assignments that are written out.
-/

namespace CircuitCompiler

/-! ## Trees of nodes -/

/-- What is written on a node. -/
inductive NodeLabel where
  | name (name : String)
  | constant (value : Constant)
  | joint (joint : Joint)
  | operator (op : Operator)
  | unary (op : UnaryOperator)
  | choice
  /-- Bits of a vector: one of them under two nodes, a range under three. -/
  | bits
  deriving DecidableEq, Repr

namespace NodeLabel

/-- The name on a node, if it is one. -/
def name? : NodeLabel → Option String
  | name n => some n
  | _ => none

@[simp] theorem name?_name (n : String) : (name n).name? = some n := rfl

@[simp] theorem name?_joint (j : Joint) : (joint j).name? = none := rfl

/-- The node with a label at a place. -/
def exprNode (span : Span) : NodeLabel → ExprNode
  | name n => ⟨.identifier, n, span⟩
  | constant value => ⟨.constant, value.text, span⟩
  | joint j => ⟨.binary, j.spelling, span⟩
  | operator op => ⟨.binary, op.spelling, span⟩
  | unary op => ⟨.unary, op.spelling, span⟩
  | choice => ⟨.ternary, "", span⟩
  | bits => ⟨.splice, "", span⟩

end NodeLabel

/-- A node with its place and the trees below it, in source order. -/
inductive NodeTree where
  | node (label : NodeLabel) (span : Span) (below : List NodeTree)
  deriving Repr

namespace NodeTree

mutual

/-- The nodes of a tree, each before those below it. -/
def nodes : NodeTree → List (NodeLabel × Span)
  | node label span below => (label, span) :: nodesAll below

/-- The nodes of trees one after the other. -/
def nodesAll : List NodeTree → List (NodeLabel × Span)
  | [] => []
  | t :: rest => t.nodes ++ nodesAll rest

end

/-- The names in trees, joined by underscores. -/
def joinedNames (ts : List NodeTree) : String :=
  String.intercalate "_" ((nodesAll ts).filterMap fun n => n.1.name?)

mutual

/-- The tree with one name in the place of each outermost member access: the names in it, joined by
underscores. -/
def flattened : NodeTree → NodeTree
  | node label span below =>
    if label = .joint .member then node (.name (joinedNames below)) span []
    else node label span (flattenedAll below)

/-- Trees with names in the places of member accesses. -/
def flattenedAll : List NodeTree → List NodeTree
  | [] => []
  | t :: rest => t.flattened :: flattenedAll rest

end

/-- No node of the tree is a member access. -/
def MemberFree (t : NodeTree) : Prop := ∀ n ∈ t.nodes, n.1 ≠ .joint .member

mutual

theorem flattened_free : ∀ t : NodeTree, t.flattened.MemberFree
  | node label span below => by
    unfold flattened MemberFree
    by_cases member : label = .joint .member
    · rw [if_pos member]
      simp [nodes, nodesAll]
    · rw [if_neg member, nodes]
      exact List.forall_mem_cons.mpr ⟨member, flattenedAll_free below⟩

theorem flattenedAll_free :
    ∀ (ts : List NodeTree), ∀ n ∈ nodesAll (flattenedAll ts), n.1 ≠ .joint .member
  | [] => by simp [flattenedAll, nodesAll]
  | t :: rest => by
    rw [flattenedAll, nodesAll]
    exact List.forall_mem_append.mpr ⟨t.flattened_free, flattenedAll_free rest⟩

end

end NodeTree

/-! ## The trees of expressions -/

/-- The tree of a segment and those behind it. -/
def Path.treeOver : Segment → List Segment → NodeTree
  | s, [] => .node (.name s.name) s.span []
  | s, t :: rest =>
    .node (.joint .member) (spanOver s (t :: rest))
      [.node (.name s.name) s.span [], treeOver t rest]

/-- The tree of a path. -/
def Path.tree (p : Path) : NodeTree := treeOver p.head p.tail

/-- The tree of an expression. -/
def Expr.tree : Expr → NodeTree
  | ref path => path.tree
  | const span value => .node (.constant value) span []
  | binary span op left right => .node (.operator op) span [left.tree, right.tree]
  | unary span op operand => .node (.unary op) span [operand.tree]
  | choice span cond yes no => .node .choice span [cond.tree, yes.tree, no.tree]
  | index span target bit => .node .bits span [target.tree, bit.tree]
  | range span target high low => .node .bits span [target.tree, high.tree, low.tree]

/-- The tree of an assignment: it has its target and its value below it and spans both. -/
def assignmentTree (a : Expr × Expr) : NodeTree :=
  .node (.joint .assign) (a.1.span.cover a.2.span) [a.1.tree, a.2.tree]

open NodeTree

/-- The nodes of an expression are those of its tree. -/
theorem Expr.nodes_tree (e : Expr) : (e.tree.nodes.map fun n => n.1.exprNode n.2) = e.nodes := by
  have chain : ∀ rest s, ((Path.treeOver s rest).nodes.map fun n => n.1.exprNode n.2) =
      Path.nodesOver s rest := by
    intro rest
    induction rest with
    | nil => exact fun _ => rfl
    | cons t rest ih =>
      intro s
      simp only [Path.treeOver, NodeTree.nodes, nodesAll, List.map_cons, List.map_append,
        List.map_nil, List.append_nil, ih]
      rfl
  have path : ∀ p : Path, (p.tree.nodes.map fun n => n.1.exprNode n.2) = p.nodes :=
    fun p => chain p.tail p.head
  induction e with
  | ref p => exact path p
  | const => rfl
  | binary | unary | choice | index | range =>
    simp only [tree, NodeTree.nodes, nodesAll, List.map_cons, List.map_append, *]
    simp only [Expr.nodes, List.map_nil, List.append_nil, List.append_assoc]
    rfl

/-- The names in the tree of a path are those of its segments. -/
theorem Path.names_treeOver (s : Segment) (rest : List Segment) :
    ((treeOver s rest).nodes.filterMap fun n => n.1.name?) = s.name :: rest.map (·.name) := by
  induction rest generalizing s with
  | nil => rfl
  | cons t rest ih => simp [treeOver, NodeTree.nodes, nodesAll, List.filterMap_cons, ih]

/-! ## Lowered expressions -/

theorem Path.tree_lowered (p : Path) : p.lowered.tree = p.tree.flattened := by
  obtain ⟨s, tail⟩ := p
  cases tail with
  | nil => rfl
  | cons t rest =>
    have joined : joinedNames [.node (.name s.name) s.span [], treeOver t rest] =
        Vhdl.signalName ⟨s, t :: rest⟩ := by
      simp [joinedNames, nodesAll, NodeTree.nodes, names_treeOver, Vhdl.signalName, names, segments]
    simp only [tree, treeOver, flattened, if_true, joined]
    rfl

theorem Expr.tree_lowered (e : Expr) : e.lowered.tree = e.tree.flattened := by
  induction e with
  | ref p => exact p.tree_lowered
  | const => rfl
  | binary | unary | choice | index | range =>
    simp [lowered, tree, flattened, flattenedAll, Path.tree_lowered, *]

/-- A lowered expression has the place of the expression. -/
theorem Expr.span_lowered (e : Expr) : e.lowered.span = e.span := by
  cases e with
  | ref p =>
    show p.lowered.span = p.span
    unfold Path.lowered
    split <;> rfl
  | const | binary | unary | choice | index | range => rfl

theorem assignmentTree_lowered (a : Expr × Expr) :
    assignmentTree (a.1.lowered, a.2.lowered) = (assignmentTree a).flattened := by
  simp [assignmentTree, Expr.tree_lowered, Expr.span_lowered, flattened, flattenedAll]

namespace Vhdl

/-- The assignments that are written out are those of the component, in their order, with a name in
the place of each outermost dotted path and all else as it was. No member access is left. -/
theorem emit_flattens {g g' : Generator} {c : Component} {text : String}
    (emits : g.emit c = (.ok text, g')) :
    text = renderLines (indentStep g.indent) (unitLines c g'.work) ∧
      g'.work.assigns.map assignmentTree =
        (c.assignments.map assignmentTree).map NodeTree.flattened ∧
      ∀ a ∈ g'.work.assigns, (assignmentTree a).MemberFree := by
  obtain ⟨lowers, written⟩ := lower_of_emit emits
  have trees : g'.work.assigns.map assignmentTree =
      (c.assignments.map assignmentTree).map NodeTree.flattened := by
    rw [lower_assigns lowers, List.map_map, List.map_map]
    exact List.map_congr_left fun a _ => assignmentTree_lowered a
  refine ⟨written, trees, fun a ha => ?_⟩
  have image : assignmentTree a ∈ (c.assignments.map assignmentTree).map NodeTree.flattened :=
    trees ▸ List.mem_map_of_mem ha
  obtain ⟨t, -, same⟩ := List.mem_map.mp image
  exact same ▸ t.flattened_free

/-- A component with a path of three segments and with bits taken of a port. -/
def pathUser : Component where
  name := "T"
  nameSpan := .zero
  span := .zero
  file := 0
  items := [.arch ⟨.zero, "", .zero, [
    .inst .zero ⟨"u", .zero, "A", .zero, []⟩,
    .assign .zero (.index ⟨0, 10, 16⟩ ⟨⟨"u", ⟨0, 10, 11⟩⟩, [⟨"q", ⟨0, 12, 13⟩⟩]⟩
        (.const ⟨0, 14, 15⟩ ⟨.int, "3"⟩))
      (.binary ⟨0, 20, 30⟩ .add
        (.ref ⟨⟨"u", ⟨0, 20, 21⟩⟩, [⟨"a", ⟨0, 22, 23⟩⟩, ⟨"b", ⟨0, 24, 25⟩⟩]⟩)
        (.ref ⟨⟨"x", ⟨0, 28, 29⟩⟩, []⟩))]⟩]
  widths := []

/-- Two chains become names, of two and of three segments; the bit, the sum and the plain name keep
their nodes. -/
theorem emit_flattens_pathUser :
    ∃ text g', (⟨none, 4, default⟩ : Generator).emit pathUser = (.ok text, g') ∧
      g'.work.assigns.map assignmentTree = [.node (.joint .assign) ⟨0, 10, 30⟩ [
        .node .bits ⟨0, 10, 16⟩ [
          .node (.name "u_q") ⟨0, 10, 13⟩ [],
          .node (.constant ⟨.int, "3"⟩) ⟨0, 14, 15⟩ []],
        .node (.operator .add) ⟨0, 20, 30⟩ [
          .node (.name "u_a_b") ⟨0, 20, 25⟩ [],
          .node (.name "x") ⟨0, 28, 29⟩ []]]] := by
  obtain ⟨text, g', run⟩ : ∃ text g', (⟨none, 4, default⟩ : Generator).emit pathUser =
      (.ok text, g') := emitted_of_isOk (by decide)
  obtain ⟨-, trees, -⟩ := emit_flattens run
  exact ⟨text, g', run, trees.trans (by rfl)⟩

end Vhdl
end CircuitCompiler
