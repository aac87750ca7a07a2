import CircuitCompiler.Expr.Fill

/-!
# Storing expressions

The grammar fills an arena with the nodes of the expression it reads, and with nothing else.
`Expr.store` allocates the nodes of an expression, each behind those below it. A step that fills an
arena is compared with the step that reads a tree: from any arena on it stores what the other reads
(`Fill.Stores`), with the same errors and the same reading behind it. Each level of the grammar keeps
this, given that the levels below it do.

An allocation adds a node and leaves the others as they are, so that what was stored keeps its place,
its content and its numbers while more is stored (`Arena.Extends`).

* `Arena.holds_new`, `Arena.extends_new`: what an allocation does;
* `Expr.Stands`, `Expr.stands_store`: under which numbers the nodes of an expression are found;
* `Fill.wholeExpression_stores`: the grammar stores what it reads;
* `Arena.parse_eq`: what an expression is read into.
-/

namespace CircuitCompiler

/-! ## Tables -/

namespace Table

variable {α : Type} {t : Table α} {n : Nat} {x y : α}

theorem get?_push_self (t : Table α) (x : α) : (t.push x).2.get? (t.push x).1 = some x := by
  simp [push, get?, size]

theorem get?_push (found : t.get? n = some y) : (t.push x).2.get? n = some y := by
  by_cases zero : n = 0
  · simp [get?, zero] at found
  · simp only [get?, if_neg zero] at found
    obtain ⟨inside, -⟩ := Array.getElem?_eq_some_iff.mp found
    rw [push, get?, if_neg zero, Array.getElem?_push_lt inside, ← found,
      Array.getElem?_eq_getElem inside]

theorem size_push (t : Table α) (x : α) : (t.push x).2.size = t.size + 1 := Array.size_push x

theorem le_size_of_get? (found : t.get? n = some x) : n ≤ t.size := by
  by_cases zero : n = 0
  · exact zero ▸ Nat.zero_le _
  · rw [get?, if_neg zero] at found
    obtain ⟨inside, -⟩ := Array.getElem?_eq_some_iff.mp found
    exact Nat.le_of_pred_lt inside

end Table

/-! ## Nodes -/

namespace Arena

variable {a b d : Arena} {id : Nat} {span : Span} {c : Content}

/-- A node with a place and a content stands under a number. -/
structure Holds (a : Arena) (id : Nat) (span : Span) (c : Content) : Prop where
  span : a.span? id = some span
  content : a.content? id = some c

/-- All nodes of one arena stand in the other under the same numbers. -/
structure Extends (a b : Arena) : Prop where
  span? : ∀ {id span}, a.span? id = some span → b.span? id = some span
  content? : ∀ {id c}, a.content? id = some c → b.content? id = some c

theorem Extends.refl (a : Arena) : a.Extends a := ⟨fun found => found, fun found => found⟩

theorem Extends.trans (first : a.Extends b) (second : b.Extends d) : a.Extends d :=
  ⟨fun found => second.span? (first.span? found),
    fun found => second.content? (first.content? found)⟩

theorem Extends.holds (extends_ : a.Extends b) (holds : a.Holds id span c) : b.Holds id span c :=
  ⟨extends_.span? holds.span, extends_.content? holds.content⟩

theorem contentOf?_addContent_self (a : Arena) (c : Content) :
    (a.addContent c).2.contentOf? c.kind (a.addContent c).1 = some c := by
  cases c <;> exact congrArg (Option.map _) (Table.get?_push_self _ _)

theorem contentOf?_addContent {k : NodeKind} {n : Nat} {c' : Content}
    (found : a.contentOf? k n = some c') : (a.addContent c).2.contentOf? k n = some c' := by
  cases c <;> cases k <;> simp only [contentOf?, addContent, Option.map_eq_some_iff] at found ⊢ <;>
    first
    | exact found
    | exact found.imp fun _ => And.imp_left Table.get?_push

theorem heads_addContent (a : Arena) (c : Content) : (a.addContent c).2.heads = a.heads := by
  cases c <;> rfl

theorem new_fst (a : Arena) (span : Span) (c : Content) : (a.new span c).1 = a.size + 1 :=
  congrArg (fun heads : Table NodeHead => heads.size + 1) (a.heads_addContent c)

theorem size_new (a : Arena) (span : Span) (c : Content) : (a.new span c).2.size = a.size + 1 := by
  rw [size, new, Table.size_push, heads_addContent]
  rfl

/-- A node that is allocated stands in the arena. -/
theorem holds_new (a : Arena) (span : Span) (c : Content) :
    (a.new span c).2.Holds (a.new span c).1 span c := by
  have head : (a.new span c).2.heads.get? (a.new span c).1 =
      some ⟨c.kind, span, (a.addContent c).1⟩ := Table.get?_push_self _ _
  constructor
  case span => rw [span?, head, Option.map_some]
  case content =>
    rw [content?, head, Option.bind_some]
    exact contentOf?_addContent_self a c

theorem get?_heads_new {h : NodeHead} (found : a.heads.get? id = some h) :
    (a.new span c).2.heads.get? id = some h :=
  Table.get?_push ((congrArg (Table.get? · id) (a.heads_addContent c)).trans found)

/-- Allocating a node leaves the others as they are. -/
theorem extends_new (a : Arena) (span : Span) (c : Content) : a.Extends (a.new span c).2 := by
  constructor
  case span? =>
    intro id span' found
    obtain ⟨h, head, atSpan⟩ := Option.map_eq_some_iff.mp found
    rw [span?, get?_heads_new head, Option.map_some, atSpan]
  case content? =>
    intro id c' found
    obtain ⟨h, head, content⟩ := Option.bind_eq_some_iff.mp found
    rw [content?, get?_heads_new head, Option.bind_some]
    exact contentOf?_addContent content

theorem look?_of_content (found : a.content? id = some c) : a.look? id = some (some c) := by
  have counted : id ≠ 0 := by
    rintro rfl
    exact absurd found (by simp [content?, Table.get?])
  rw [look?, if_neg counted, found, Option.map_some]

end Arena

/-! ## Expressions -/

/-- Allocates the nodes of the names of a path and of the joints between them. -/
def Path.storeOver : Segment → List Segment → Arena → Nat × Arena
  | s, [], a => a.new s.span (.ident s.name)
  | s, t :: rest, a =>
    let left := a.new s.span (.ident s.name)
    let right := storeOver t rest left.2
    right.2.new (spanOver s (t :: rest)) (.binary (.joint .member) left.1 right.1)

/-- Allocates the nodes of a path. -/
def Path.store (p : Path) (a : Arena) : Nat × Arena := storeOver p.head p.tail a

/-- Allocates the nodes of an expression, each behind those below it. -/
def Expr.store : Expr → Arena → Nat × Arena
  | ref path, a => path.store a
  | const span value, a => a.new span (.const value)
  | binary span op left right, a =>
    let left := left.store a
    let right := right.store left.2
    right.2.new span (.binary (.operator op) left.1 right.1)
  | unary span op operand, a =>
    let operand := operand.store a
    operand.2.new span (.unary op operand.1)
  | choice span cond yes no, a =>
    let cond := cond.store a
    let yes := yes.store cond.2
    let no := no.store yes.2
    no.2.new span (.ternary cond.1 yes.1 no.1)
  | index span target bit, a =>
    let target := target.store a
    let bit := bit.store target.2
    bit.2.new span (.splice target.1 bit.1 bit.1)
  | range span target high low, a =>
    let target := target.store a
    let high := high.store target.2
    let low := low.store high.2
    low.2.new span (.splice target.1 high.1 low.1)

namespace Path

/-- A path is stored behind what is there already, with its last joint last. -/
theorem storeOver_numbers (s : Segment) (rest : List Segment) (a : Arena) :
    (storeOver s rest a).1 = a.size + (2 * rest.length + 1) ∧
      (storeOver s rest a).2.size = a.size + (2 * rest.length + 1) := by
  induction rest generalizing s a with
  | nil => exact ⟨a.new_fst _ _, a.size_new _ _⟩
  | cons t rest ih =>
    obtain ⟨-, size⟩ := ih t (a.new s.span (.ident s.name)).2
    simp only [storeOver, Arena.new_fst, Arena.size_new, size, List.length_cons]
    omega

theorem extends_storeOver (s : Segment) (rest : List Segment) (a : Arena) :
    a.Extends (storeOver s rest a).2 := by
  induction rest generalizing s a with
  | nil => exact a.extends_new _ _
  | cons t rest ih => exact ((a.extends_new _ _).trans (ih t _)).trans (Arena.extends_new _ _ _)

theorem span?_storeOver (s : Segment) (rest : List Segment) (a : Arena) :
    (storeOver s rest a).2.span? (storeOver s rest a).1 = some (spanOver s rest) := by
  cases rest with
  | nil => exact (a.holds_new _ _).span
  | cons t rest => exact (Arena.holds_new _ _ _).span

theorem store_numbers (p : Path) (a : Arena) :
    (p.store a).1 = a.size + p.size ∧ (p.store a).2.size = a.size + p.size :=
  storeOver_numbers p.head p.tail a

theorem extends_store (p : Path) (a : Arena) : a.Extends (p.store a).2 :=
  extends_storeOver p.head p.tail a

theorem span?_store (p : Path) (a : Arena) : (p.store a).2.span? (p.store a).1 = some p.span :=
  span?_storeOver p.head p.tail a

end Path

namespace Expr

theorem extends_store (e : Expr) (a : Arena) : a.Extends (e.store a).2 := by
  induction e generalizing a with
  | ref path => exact path.extends_store _
  | const span value => exact a.extends_new _ _
  | binary span op left right ihl ihr =>
    exact ((ihl a).trans (ihr _)).trans (Arena.extends_new _ _ _)
  | unary span op operand ih => exact (ih a).trans (Arena.extends_new _ _ _)
  | choice span cond yes no ihc ihy ihn =>
    exact (((ihc a).trans (ihy _)).trans (ihn _)).trans (Arena.extends_new _ _ _)
  | index span target bit ih =>
    exact ((target.extends_store a).trans (ih _)).trans (Arena.extends_new _ _ _)
  | range span target high low ihh ihl =>
    exact (((target.extends_store a).trans (ihh _)).trans (ihl _)).trans
      (Arena.extends_new _ _ _)

theorem span?_store (e : Expr) (a : Arena) : (e.store a).2.span? (e.store a).1 = some e.span := by
  cases e with
  | ref path => exact path.span?_store _
  | _ => exact (Arena.holds_new _ _ _).span

end Expr

/-! ## Where the nodes of an expression stand -/

namespace Path

/-- The nodes of the names of a path and of the joints between them stand behind the first `lo`
nodes: the first name, the rest of the path, and the joint of the two. -/
def StandsOver (a : Arena) : Nat → Segment → List Segment → Prop
  | lo, s, [] => a.Holds (lo + 1) s.span (.ident s.name)
  | lo, s, t :: rest =>
    a.Holds (lo + 1) s.span (.ident s.name) ∧ StandsOver a (lo + 1) t rest ∧
      a.Holds (lo + (2 * (t :: rest).length + 1)) (spanOver s (t :: rest))
        (.binary (.joint .member) (lo + 1) (lo + 1 + (2 * rest.length + 1)))

/-- The nodes of a path stand behind the first `lo` nodes. -/
def Stands (a : Arena) (lo : Nat) (p : Path) : Prop := StandsOver a lo p.head p.tail

variable {a b : Arena}

theorem standsOver_store {s : Segment} {rest : List Segment}
    (stored : (storeOver s rest a).2.Extends b) : StandsOver b a.size s rest := by
  induction rest generalizing s a with
  | nil =>
    have name := stored.holds (a.holds_new _ _)
    rwa [Arena.new_fst] at name
  | cons t rest ih =>
    have right := (Arena.extends_new _ _ _).trans stored
    have left := ((extends_storeOver t rest _).trans right).holds
      (a.holds_new s.span (.ident s.name))
    have joint := stored.holds (Arena.holds_new _ _ _)
    have sizes := storeOver_numbers t rest (a.new s.span (.ident s.name)).2
    have behind := ih right
    simp only [Arena.new_fst, Arena.size_new, sizes] at left joint behind
    rw [show a.size + 1 + (2 * rest.length + 1) + 1 = a.size + (2 * (rest.length + 1) + 1) by
      omega] at joint
    exact ⟨left, behind, joint⟩

end Path

namespace Expr

/-- The nodes of an expression stand behind the first `lo` nodes: first those of its parts, one part
after the other, and last its own. -/
def Stands (a : Arena) : Nat → Expr → Prop
  | lo, ref path => path.Stands a lo
  | lo, const span value => a.Holds (lo + 1) span (.const value)
  | lo, binary span op left right =>
    Stands a lo left ∧ Stands a (lo + left.size) right ∧
      a.Holds (lo + (left.size + right.size + 1)) span
        (.binary (.operator op) (lo + left.size) (lo + left.size + right.size))
  | lo, unary span op operand =>
    Stands a lo operand ∧ a.Holds (lo + (operand.size + 1)) span (.unary op (lo + operand.size))
  | lo, choice span cond yes no =>
    Stands a lo cond ∧ Stands a (lo + cond.size) yes ∧ Stands a (lo + cond.size + yes.size) no ∧
      a.Holds (lo + (cond.size + yes.size + no.size + 1)) span
        (.ternary (lo + cond.size) (lo + cond.size + yes.size)
          (lo + cond.size + yes.size + no.size))
  | lo, index span target bit =>
    target.Stands a lo ∧ Stands a (lo + target.size) bit ∧
      a.Holds (lo + (target.size + bit.size + 1)) span
        (.splice (lo + target.size) (lo + target.size + bit.size) (lo + target.size + bit.size))
  | lo, range span target high low =>
    target.Stands a lo ∧ Stands a (lo + target.size) high ∧
      Stands a (lo + target.size + high.size) low ∧
      a.Holds (lo + (target.size + high.size + low.size + 1)) span
        (.splice (lo + target.size) (lo + target.size + high.size)
          (lo + target.size + high.size + low.size))

variable {a b : Arena}

/-- An expression is stored behind what is there already, with its own node last. -/
theorem store_numbers (e : Expr) (a : Arena) :
    (e.store a).1 = a.size + e.size ∧ (e.store a).2.size = a.size + e.size := by
  induction e generalizing a with
  | ref path => exact Path.storeOver_numbers _ _ a
  | const span value => exact ⟨a.new_fst _ _, a.size_new _ _⟩
  | binary span op left right ihl ihr =>
    simp only [store, Arena.new_fst, Arena.size_new, ihl, ihr, size]
    omega
  | unary span op operand ih =>
    simp only [store, Arena.new_fst, Arena.size_new, ih, size]
    omega
  | choice span cond yes no ihc ihy ihn =>
    simp only [store, Arena.new_fst, Arena.size_new, ihc, ihy, ihn, size]
    omega
  | index span target bit ih =>
    simp only [store, Arena.new_fst, Arena.size_new, Path.store_numbers, ih, size]
    omega
  | range span target high low ihh ihl =>
    simp only [store, Arena.new_fst, Arena.size_new, Path.store_numbers, ihh, ihl, size]
    omega

/-- What is stored stands where it was stored, whatever is allocated later. -/
theorem stands_store {e : Expr} (stored : (e.store a).2.Extends b) : e.Stands b a.size := by
  induction e generalizing a with
  | ref path => exact Path.standsOver_store stored
  | const span value =>
    have own := stored.holds (a.holds_new _ _)
    rwa [Arena.new_fst] at own
  | binary span op left right ihl ihr =>
    have own := stored.holds (Arena.holds_new _ _ _)
    have right' := (Arena.extends_new _ _ _).trans stored
    have left' := (right.extends_store _).trans right'
    have behind := ihr right'
    simp only [Arena.new_fst, store_numbers, Nat.add_assoc] at own behind
    exact ⟨ihl left', behind, by simpa only [Nat.add_assoc] using own⟩
  | unary span op operand ih =>
    have own := stored.holds (Arena.holds_new _ _ _)
    simp only [Arena.new_fst, store_numbers, Nat.add_assoc] at own
    exact ⟨ih ((Arena.extends_new _ _ _).trans stored), own⟩
  | choice span cond yes no ihc ihy ihn =>
    have own := stored.holds (Arena.holds_new _ _ _)
    have no' := (Arena.extends_new _ _ _).trans stored
    have yes' := (no.extends_store _).trans no'
    have cond' := (yes.extends_store _).trans yes'
    have second := ihy yes'
    have third := ihn no'
    simp only [Arena.new_fst, store_numbers, Nat.add_assoc] at own second third
    exact ⟨ihc cond', second, by simpa only [Nat.add_assoc] using third,
      by simpa only [Nat.add_assoc] using own⟩
  | index span target bit ih =>
    have own := stored.holds (Arena.holds_new _ _ _)
    have bit' := (Arena.extends_new _ _ _).trans stored
    have target' := (bit.extends_store _).trans bit'
    have second := ih bit'
    simp only [Arena.new_fst, store_numbers, Path.store_numbers, Nat.add_assoc] at own second
    exact ⟨Path.standsOver_store target', second, by simpa only [Nat.add_assoc] using own⟩
  | range span target high low ihh ihl =>
    have own := stored.holds (Arena.holds_new _ _ _)
    have low' := (Arena.extends_new _ _ _).trans stored
    have high' := (low.extends_store _).trans low'
    have target' := (high.extends_store _).trans high'
    have second := ihh high'
    have third := ihl low'
    simp only [Arena.new_fst, store_numbers, Path.store_numbers, Nat.add_assoc] at own second third
    exact ⟨Path.standsOver_store target', second, by simpa only [Nat.add_assoc] using third,
      by simpa only [Nat.add_assoc] using own⟩

/-- The expressions whose nodes are below the node of an expression, each with the number of nodes
before it. -/
def parts (lo : Nat) : Expr → List (Nat × Expr)
  | ref ⟨_, []⟩ | const .. => []
  | ref ⟨s, t :: rest⟩ => [(lo, ref ⟨s, []⟩), (lo + 1, ref ⟨t, rest⟩)]
  | binary _ _ left right => [(lo, left), (lo + left.size, right)]
  | unary _ _ operand => [(lo, operand)]
  | choice _ cond yes no => [(lo, cond), (lo + cond.size, yes), (lo + cond.size + yes.size, no)]
  | index _ target bit => [(lo, ref target), (lo + target.size, bit)]
  | range _ target high low =>
    [(lo, ref target), (lo + target.size, high), (lo + target.size + high.size, low)]

/-- What is written on the node of an expression. -/
def top (lo : Nat) : Expr → Content
  | ref ⟨s, []⟩ => .ident s.name
  | ref ⟨s, t :: rest⟩ =>
    .binary (.joint .member) (lo + (ref ⟨s, []⟩).size) (lo + 1 + (ref ⟨t, rest⟩).size)
  | const _ value => .const value
  | binary _ op left right =>
    .binary (.operator op) (lo + left.size) (lo + left.size + right.size)
  | unary _ op operand => .unary op (lo + operand.size)
  | choice _ cond yes no =>
    .ternary (lo + cond.size) (lo + cond.size + yes.size) (lo + cond.size + yes.size + no.size)
  | index _ target bit =>
    .splice (lo + (ref target).size) (lo + target.size + bit.size) (lo + target.size + bit.size)
  | range _ target high low =>
    .splice (lo + (ref target).size) (lo + target.size + high.size)
      (lo + target.size + high.size + low.size)

variable {lo : Nat} {e : Expr}

/-- The node of an expression stands behind those of its parts. -/
theorem top_stands (stands : e.Stands a lo) : a.Holds (lo + e.size) e.span (e.top lo) := by
  cases e with
  | ref path =>
    obtain ⟨s, _ | ⟨t, rest⟩⟩ := path
    · exact stands
    · exact stands.2.2
  | const span value => exact stands
  | binary span op left right => exact stands.2.2
  | unary span op operand => exact stands.2
  | choice span cond yes no => exact stands.2.2.2
  | index span target bit => exact stands.2.2
  | range span target high low => exact stands.2.2.2

/-- The parts of an expression stand in its place. -/
theorem parts_stand (stands : e.Stands a lo) : ∀ p ∈ e.parts lo, p.2.Stands a p.1 := by
  cases e with
  | ref path =>
    obtain ⟨s, _ | ⟨t, rest⟩⟩ := path
    · exact List.forall_mem_nil _
    · have first : (ref ⟨s, []⟩).Stands a lo := stands.1
      have behind : (ref ⟨t, rest⟩).Stands a (lo + 1) := stands.2.1
      simp [parts, first, behind]
  | const span value => exact List.forall_mem_nil _
  | binary span op left right => simp [parts, stands.1, stands.2.1]
  | unary span op operand => simp [parts, stands.1]
  | choice span cond yes no => simp [parts, stands.1, stands.2.1, stands.2.2.1]
  | index span target bit =>
    have path : (ref target).Stands a lo := stands.1
    simp [parts, path, stands.2.1]
  | range span target high low =>
    have path : (ref target).Stands a lo := stands.1
    simp [parts, path, stands.2.1, stands.2.2.1]

/-- The node of an expression is behind those of its parts. -/
theorem parts_below {p : Nat × Expr} (part : p ∈ e.parts lo) :
    lo ≤ p.1 ∧ p.1 + p.2.size < lo + e.size := by
  cases e with
  | ref path =>
    obtain ⟨s, _ | ⟨t, rest⟩⟩ := path
    · cases part
    · simp only [parts, List.mem_cons, List.not_mem_nil, or_false] at part
      rcases part with rfl | rfl <;> simp only [size, Path.size, List.length_cons, List.length_nil] <;> omega
  | const span value => cases part
  | _ =>
    simp only [parts, List.mem_cons, List.not_mem_nil, or_false] at part
    rcases part with rfl | rfl | rfl <;> simp only [size] <;> omega

theorem stands_inside (stands : e.Stands a lo) : lo + e.size ≤ a.size := by
  obtain ⟨_, head, -⟩ := Option.map_eq_some_iff.mp (top_stands stands).span
  exact Table.le_size_of_get? head

/-- A pass gives `value` for the nodes of expressions if its step does, where the pass below does for
those of the parts. -/
theorem pass_stands {β : Type} {endless : β} {step : (Nat → β) → Nat → β} (value : Nat → Expr → β)
    (node : ∀ {pass : Nat → β} {lo : Nat} {e : Expr}, e.Stands a lo →
      (∀ p ∈ e.parts lo, pass (p.1 + p.2.size) = value p.1 p.2) →
        step pass (lo + e.size) = value lo e)
    (stands : e.Stands a lo) : a.pass endless step (lo + e.size) = value lo e := by
  have cut : ∀ depth lo (e : Expr), e.Stands a lo → lo + e.size < depth →
      Arena.passUpTo endless step depth (lo + e.size) = value lo e := by
    intro depth
    induction depth with
    | zero => exact fun _ _ _ deep => absurd deep (Nat.not_lt_zero _)
    | succ depth ih =>
      intro lo e stands deep
      refine node stands fun p part => ih p.1 p.2 (parts_stand stands p part) ?_
      exact Nat.lt_of_lt_of_le (parts_below part).2 (Nat.le_of_lt_succ deep)
  exact cut _ lo e stands (Nat.lt_succ_of_le (stands_inside stands))

/-- The names of a path are collected, and none for any other expression. -/
theorem names?_stands (stands : e.Stands a lo) :
    a.names? (lo + e.size) = some (e.path?.map Path.names) := by
  refine pass_stands (fun _ e => some (e.path?.map Path.names)) ?_ stands
  intro names? lo e stands below
  rw [Arena.namesStep, Arena.look?_of_content (top_stands stands).content]
  cases e with
  | ref path =>
    obtain ⟨s, _ | ⟨t, rest⟩⟩ := path
    · rfl
    · have first := parts_stand stands (lo, ref ⟨s, []⟩) (by simp [parts])
      have names := below (lo + 1, ref ⟨t, rest⟩) (by simp [parts])
      simp only [top, Option.bind_eq_bind, Option.bind_some, names,
        Arena.look?_of_content (top_stands first).content]
      rfl
  | _ => rfl

/-- What a path is written as, and no text for any other expression. -/
theorem pathText_stands (stands : e.Stands a lo) :
    a.pathText (lo + e.size) = some ((e.path?.map Path.text).getD "") := by
  rw [Arena.pathText, names?_stands stands, Option.map_some, Option.map_map]
  rfl

end Expr

theorem Path.pathText_store (p : Path) (a : Arena) :
    (p.store a).2.pathText (p.store a).1 = some p.text := by
  rw [(p.store_numbers a).1]
  exact Expr.pathText_stands (e := .ref p) (Expr.stands_store (Arena.Extends.refl _))

/-! ## The grammar -/

namespace Parse

instance : LawfulMonad Parse :=
  .mk' Parse
    (fun p => funext fun r => by
      show andThen p _ r = p r
      rw [andThen]
      rcases p r with ⟨_ | _, _⟩ <;> rfl)
    (fun _ _ => rfl)
    (fun p f g => funext fun r => by
      show andThen (andThen p f) g r = andThen p (fun x => andThen (f x) g) r
      simp only [andThen]
      rcases p r with ⟨_ | _, _⟩ <;> rfl)

theorem withScope_map {α β : Type} (scope : Scope) (f : α → β) (p : Parse α) :
    withScope scope (f <$> p) = f <$> withScope scope p := by
  funext r
  show withScope scope (andThen p _) r = andThen (withScope scope p) _ r
  simp only [withScope, andThen]
  rcases p { r with scope } with ⟨_ | _, _⟩ <;> rfl

end Parse

namespace Fill

variable {α β : Type} {a : Arena} {q : Fill Nat} {p : Parse Expr}

theorem bind_apply (q : Fill α) (f : α → Fill β) (a : Arena) :
    (q >>= f) a = q a >>= fun x => f x.1 x.2 := rfl

/-- A step that allocates nothing leaves the arena as it is. -/
theorem lift_apply (p : Parse α) (a : Arena) : (liftM p : Fill α) a = (·, a) <$> p := by
  show (p >>= fun x => pure (x, a)) = _
  exact bind_pure_comp _ _

theorem allocate_apply (span : Span) (c : Content) (a : Arena) :
    allocate span c a = pure (a.new span c) := rfl

theorem look_apply {find? : Arena → Option α} {x : α} (found : find? a = some x) :
    look find? a = pure (x, a) := by
  rw [look, found]
  rfl

/-- A step fills the arena with the expression that the grammar reads. -/
def Stores (q : Fill Nat) (p : Parse Expr) : Prop := ∀ a, q a = (·.store a) <$> p

theorem spanOf_apply {id : Nat} {span : Span} (found : a.span? id = some span) :
    spanOf id a = pure (span, a) := look_apply found

theorem join_apply (op : Operator) (left right : Expr) (a : Arena) :
    join op (left.store a).1 (right.store (left.store a).2).1 (right.store (left.store a).2).2 =
      pure ((Expr.binary (left.span.cover right.span) op left right).store a) := by
  have front := (right.extends_store _).span? (left.span?_store a)
  have back := right.span?_store (left.store a).2
  simp only [join, bind_apply, spanOf_apply front, spanOf_apply back, allocate_apply, pure_bind]
  rfl

theorem leftRounds_stores (stores : Stores q p) (op? : Kind → Option Operator) (fuel : Nat)
    (left : Expr) (a : Arena) : leftRounds q op? fuel (left.store a).1 (left.store a).2 =
      (·.store a) <$> Parse.leftRounds p op? fuel left := by
  induction fuel generalizing left with
  | zero => rfl
  | succ fuel ih =>
    rw [leftRounds, Parse.leftRounds]
    simp only [bind_apply, lift_apply, bind_map_left, map_bind]
    refine bind_congr fun t => ?_
    cases op? t.kind with
    | none => rfl
    | some op =>
      simp only [bind_apply, lift_apply, bind_map_left, map_bind, stores _, join_apply, pure_bind]
      refine bind_congr fun _ => bind_congr fun right => ?_
      exact ih _

theorem leftAssoc_stores (stores : Stores q p) (op? : Kind → Option Operator) :
    Stores (leftAssoc q op?) (Parse.leftAssoc p op?) := by
  intro a
  rw [leftAssoc, Parse.leftAssoc]
  simp only [bind_apply, lift_apply, bind_map_left, map_bind, stores a]
  exact bind_congr fun left => bind_congr fun n => leftRounds_stores stores op? (n + 1) left a

theorem segments_apply (fuel : Nat) (a : Arena) :
    segments fuel a = (fun p : Path => p.store a) <$> Parse.segments fuel := by
  induction fuel generalizing a with
  | zero => rfl
  | succ fuel ih =>
    rw [segments, Parse.segments]
    simp only [bind_apply, lift_apply, bind_map_left, map_bind, allocate_apply, pure_bind]
    refine bind_congr fun t => bind_congr fun dot => ?_
    cases dot with
    | false => rfl
    | true =>
      simp only [if_true, bind_apply, lift_apply, bind_map_left, map_bind, ih,
        spanOf_apply (Path.span?_store _ _), allocate_apply, pure_bind]
      rfl

theorem path_apply (a : Arena) : path a = (fun p : Path => p.store a) <$> Parse.path := by
  rw [path, Parse.path]
  simp only [bind_apply, lift_apply, bind_map_left, map_bind, segments_apply]

/-- Allocates the bounds of a bit selection. -/
def storeBounds (a : Arena) : Expr × Option Expr → (Nat × Nat) × Arena
  | (high, none) =>
    let high := high.store a
    ((high.1, high.1), high.2)
  | (high, some low) =>
    let high := high.store a
    let low := low.store high.2
    ((high.1, low.1), low.2)

theorem bounds_apply (stores : Stores q p) (a : Arena) :
    bounds q a = storeBounds a <$> Parse.bounds p := by
  rw [bounds, Parse.bounds]
  simp only [bind_apply, lift_apply, bind_map_left, map_bind, stores a]
  refine bind_congr fun _ => bind_congr fun high => bind_congr fun ranged => ?_
  cases ranged with
  | false => rfl
  | true =>
    simp only [if_true, bind_apply, lift_apply, bind_map_left, map_bind, stores _]
    rfl

theorem nameOf_apply {id : Nat} {name : String} (found : a.pathText id = some name) :
    nameOf id a = pure (name, a) := look_apply found

theorem splice_apply (stores : Stores q p) (target : Path) (a : Arena) :
    splice q (target.store a).1 (target.store a).2 =
      (·.store a) <$> Parse.splice p target := by
  have name := target.pathText_store a
  have place := target.span?_store a
  rw [splice, Parse.splice]
  simp only [bind_apply, lift_apply, bind_map_left, map_bind, nameOf_apply name, pure_bind]
  refine bind_congr fun vector => ?_
  cases vector with
  | false =>
    simp only [Bool.false_eq_true, if_false, bind_apply, spanOf_apply place, pure_bind, lift_apply]
    rfl
  | true =>
    have within : withScope .index (bounds q) (target.store a).2 =
        storeBounds (target.store a).2 <$> Parse.withScope .index (Parse.bounds p) := by
      rw [withScope, bounds_apply stores, Parse.withScope_map]
    simp only [if_true, bind_apply, lift_apply, bind_map_left, map_bind, within]
    refine bind_congr fun selected => bind_congr fun close => ?_
    obtain ⟨high, low?⟩ := selected
    cases low? with
    | none =>
      have place := (high.extends_store _).span? place
      simp only [storeBounds, spanOf_apply place, allocate_apply, pure_bind]
      rfl
    | some low =>
      have place := ((high.extends_store _).trans (low.extends_store _)).span? place
      simp only [storeBounds, spanOf_apply place, allocate_apply, pure_bind]
      rfl

theorem reference_stores (stores : Stores q p) : Stores (reference q) (Parse.reference p) := by
  intro a
  rw [reference, Parse.reference]
  simp only [bind_apply, lift_apply, bind_map_left, map_bind, path_apply]
  refine bind_congr fun target => bind_congr fun bracket => ?_
  cases bracket with
  | false => rfl
  | true => exact splice_apply stores target a

theorem parenthesized_stores (stores : Stores q p) :
    Stores (parenthesized q) (Parse.parenthesized p) := by
  intro a
  rw [parenthesized, Parse.parenthesized]
  simp only [bind_apply, lift_apply, bind_map_left, map_bind, stores a, allocate_apply]
  rfl

theorem withScope_stores (stores : Stores q p) (scope : Scope) :
    Stores (withScope scope q) (Parse.withScope scope p) := by
  intro a
  rw [withScope, stores a, Parse.withScope_map]

/-- A step that fails at the next token does so whatever it was to give. -/
theorem unexpected_fails (wanted : Wanted) (r : Reading) :
    ∃ e, ∀ α, (Parse.unexpected wanted : Parse α) r = (.error e, r) := by
  cases tokens : r.tokens with
  | cons t rest => exact ⟨_, fun α => by rw [Parse.unexpected, Parse.failHere, tokens]⟩
  | nil =>
    cases stop : r.stop with
    | eof span => exact ⟨_, fun α => by rw [Parse.unexpected, Parse.failHere, tokens, stop]⟩
    | fault e => exact ⟨e, fun α => by rw [Parse.unexpected, Parse.failHere, tokens, stop]⟩

theorem unexpected_apply (wanted : Wanted) (f : Expr → Nat × Arena) (a : Arena) :
    (liftM (Parse.unexpected wanted : Parse Nat) : Fill Nat) a = f <$> Parse.unexpected wanted := by
  rw [lift_apply]
  funext r
  obtain ⟨e, fails⟩ := unexpected_fails wanted r
  show Parse.andThen (Parse.unexpected wanted) _ r = Parse.andThen (Parse.unexpected wanted) _ r
  rw [Parse.andThen, Parse.andThen, fails, fails]

theorem atom_stores (stores : Stores q p) : Stores (atom q) (Parse.atom p) := by
  intro a
  rw [atom, Parse.atom]
  simp only [bind_apply, lift_apply, bind_map_left, map_bind]
  refine bind_congr fun t => ?_
  cases t.kind.constForm? with
  | some form =>
    simp only [bind_apply, lift_apply, bind_map_left, map_bind, allocate_apply]
    rfl
  | none =>
    by_cases paren : t.kind = .symbol .lparen
    · simp only [if_pos paren]
      exact withScope_stores (parenthesized_stores stores) .general a
    · by_cases name : t.kind = .ident
      · simp only [if_neg paren, if_pos name]
        exact reference_stores stores a
      · simp only [if_neg paren, if_neg name]
        exact unexpected_apply .expression _ a

theorem behindUnary_stores (stores : Stores q p) (op : UnaryOperator) :
    Stores (behindUnary op q) (Parse.behindUnary op p) := by
  intro a
  rw [behindUnary, Parse.behindUnary]
  simp only [bind_apply, lift_apply, bind_map_left, map_bind, stores a,
    spanOf_apply (Expr.span?_store _ _), allocate_apply, pure_bind]
  rfl

theorem power_stores (stores : Stores q p) : Stores (power q) (Parse.power p) :=
  leftAssoc_stores (atom_stores stores) Kind.powerOp?

theorem factor_stores (stores : Stores q p) : Stores (factor q) (Parse.factor p) := by
  intro a
  rw [factor, Parse.factor]
  simp only [bind_apply, lift_apply, bind_map_left, map_bind]
  refine bind_congr fun t => ?_
  by_cases minus : t.kind = .symbol .minus
  · simp only [minus, if_true]
    exact behindUnary_stores (power_stores stores) .neg a
  by_cases word : t.kind = .keyword .not
  · simp only [word, reduceCtorEq, if_false, if_true]
    exact behindUnary_stores (power_stores stores) .not a
  · simp only [if_neg minus, if_neg word]
    exact power_stores stores a

theorem sum_stores (stores : Stores q p) : Stores (sum q) (Parse.sum p) :=
  leftAssoc_stores (leftAssoc_stores (factor_stores stores) Kind.productOp?) Kind.sumOp?

theorem comparison_stores (stores : Stores q p) : Stores (comparison q) (Parse.comparison p) := by
  intro a
  rw [comparison, Parse.comparison]
  simp only [bind_apply, lift_apply, bind_map_left, map_bind]
  refine bind_congr fun t => ?_
  by_cases truth : t.kind = .keyword .trueWord ∨ t.kind = .keyword .falseWord
  · simp only [if_pos truth, bind_apply, lift_apply, bind_map_left, map_bind, allocate_apply]
    rfl
  · simp only [if_neg truth, bind_apply, lift_apply, bind_map_left, map_bind, sum_stores stores _]
    refine bind_congr fun left => bind_congr fun t => ?_
    cases Kind.relationOp? t.kind with
    | none => rfl
    | some op =>
      simp only [bind_apply, lift_apply, bind_map_left, map_bind, sum_stores stores _, join_apply]
      rfl

theorem relation_stores (stores : Stores q p) : Stores (relation q) (Parse.relation p) := by
  intro a
  rw [relation, Parse.relation]
  simp only [bind_apply, lift_apply, bind_map_left, map_bind]
  refine bind_congr fun scope => ?_
  by_cases index : scope = .index
  · simp only [if_pos index]
    exact comparison_stores stores a
  · simp only [if_neg index]
    exact withScope_stores (comparison_stores stores) .relational a

theorem boolFactor_stores (stores : Stores q p) : Stores (boolFactor q) (Parse.boolFactor p) := by
  intro a
  rw [boolFactor, Parse.boolFactor]
  simp only [bind_apply, lift_apply, bind_map_left, map_bind]
  refine bind_congr fun t => ?_
  by_cases bang : t.kind = .symbol .bang
  · simp only [bang, if_true]
    exact behindUnary_stores (relation_stores stores) .bang a
  by_cases word : t.kind = .keyword .not
  · simp only [word, reduceCtorEq, if_false, if_true]
    exact behindUnary_stores (relation_stores stores) .not a
  · simp only [if_neg bang, if_neg word]
    exact relation_stores stores a

theorem choice_stores (stores : Stores q p) : Stores (choice q) (Parse.choice p) := by
  intro a
  have cond := leftAssoc_stores (boolFactor_stores stores) Kind.boolOp? a
  rw [choice, Parse.choice]
  simp only [boolExpr, Parse.boolExpr, bind_apply, lift_apply, bind_map_left, map_bind, cond]
  refine bind_congr fun cond => bind_congr fun question => ?_
  cases question with
  | false => rfl
  | true =>
    simp only [if_true, bind_apply, lift_apply, bind_map_left, map_bind, stores _]
    refine bind_congr fun _ => bind_congr fun yes => bind_congr fun _ => bind_congr fun no => ?_
    have front := ((yes.extends_store _).trans (no.extends_store _)).span? (cond.span?_store a)
    simp only [spanOf_apply front, spanOf_apply (no.span?_store _), allocate_apply, pure_bind]
    rfl

theorem expressionUpTo_stores : ∀ depth, Stores (expressionUpTo depth) (Parse.expressionUpTo depth)
  | 0 => fun _ => rfl
  | depth + 1 => choice_stores (expressionUpTo_stores depth)

/-- The grammar fills an arena with exactly the nodes of the expression it reads. -/
theorem wholeExpression_stores : Stores wholeExpression Parse.wholeExpression := by
  intro a
  rw [wholeExpression, Parse.wholeExpression, expression, Parse.expression]
  simp only [bind_apply, lift_apply, bind_map_left, map_bind, expressionUpTo_stores _ _, bind_assoc]
  rfl

end Fill

/-- An expression that is read into an arena is stored there; what is refused is refused alike. -/
theorem Arena.parse_eq (c : Cursor) (widths : Widths) : Arena.parse c widths =
    ((Expr.parse c widths).1.map fun e => e.store {}, (Expr.parse c widths).2) := by
  rw [Arena.parse, Fill.wholeExpression_stores]
  show Parse.andThen Parse.wholeExpression _ _ = _
  rw [Parse.andThen, Expr.parse]
  rcases Parse.wholeExpression _ with ⟨_ | _, _⟩ <;> rfl

end CircuitCompiler
