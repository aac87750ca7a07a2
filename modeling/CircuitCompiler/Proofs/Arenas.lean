import CircuitCompiler.Proofs.Grammar
import CircuitCompiler.Proofs.Storing
import CircuitCompiler.Proofs.Wiring
import CircuitCompiler.Vhdl.Arena

/-!
# Arenas of expressions

What an expression is read into is one tree. Its nodes stand behind each other, those of a part
before the node that they are parts of; so the numbers below a node are smaller than its own, every
number belongs to a part of the expression, and the passes, which go down from node to node, come to
an end. Each of them gives what it gives for the expression itself.

* `Expr.partAt`: every node is that of a part of the expression;
* `Expr.fits`: what is written on a node fits it;
* `Expr.walk_stands`, `Expr.visits_once`: the nodes that are visited, and that each is met once;
* `Expr.listForm_stands`, `Expr.vhdl_stands`, `Expr.dottedNames_stands`, `Expr.lower_stands`: the
  passes over nodes and over expressions;
* `Arena.parse_isTree`: the arena that an expression is read into.
-/

namespace CircuitCompiler

variable {a : Arena} {lo : Nat}

/-! ## Every node belongs to an expression -/

/-- The nodes before that of an expression are those of its parts. -/
theorem Expr.exists_part {id : Nat} {e : Expr} (low : lo < id) (high : id < lo + e.size) :
    ∃ p ∈ e.parts lo, p.1 < id ∧ id ≤ p.1 + p.2.size := by
  cases e with
  | ref path =>
    obtain ⟨s, _ | ⟨t, rest⟩⟩ := path
    · simp only [size, Path.size, List.length_nil] at high
      omega
    · simp only [size, Path.size, List.length_cons] at high
      simp only [parts, List.mem_cons, List.not_mem_nil, or_false, exists_eq_or_imp, exists_eq_left,
        size, Path.size, List.length_nil]
      omega
  | const span value =>
    simp only [size] at high
    omega
  | _ =>
    simp only [size] at high
    simp only [parts, List.mem_cons, List.not_mem_nil, or_false, exists_eq_or_imp, exists_eq_left,
      size]
    omega

/-- All nodes of an expression are nodes of parts of it. -/
theorem Expr.partAt {lo id : Nat} {e : Expr} (stands : e.Stands a lo) (low : lo < id)
    (high : id ≤ lo + e.size) : ∃ start part, Expr.Stands a start part ∧ id = start + part.size := by
  rcases Nat.lt_or_eq_of_le high with before | rfl
  · obtain ⟨p, part, low', high'⟩ := exists_part low before
    have smaller := parts_below part
    exact partAt (parts_stand stands p part) low' high'
  · exact ⟨lo, e, stands, rfl⟩
termination_by e.size
decreasing_by omega

/-! ## What stands on a node -/

theorem Path.size_pos (p : Path) : 0 < p.size := Nat.succ_pos _

theorem Expr.size_pos (e : Expr) : 0 < e.size := by
  cases e with
  | ref path => exact path.size_pos
  | _ => exact Nat.succ_pos _

/-- The bounds of a range are two nodes. -/
theorem Expr.bounds_apart {n : Nat} (low : Expr) : ¬n + low.size = n := by
  have := low.size_pos
  omega

namespace Arena

/-- A node is a path: a name, or a name joined to a path. -/
def IsPath (a : Arena) (id : Nat) : Prop := ∃ names, a.names? id = some (some names)

/-- A content fits a node: what is below has a smaller number, a joint is that of a name and a path,
and bits are taken of a path. -/
structure Fits (a : Arena) (id : Nat) (c : Content) : Prop where
  below : ∀ n ∈ c.below, 0 < n ∧ n < id
  joint : ∀ j left right, c = .binary (.joint j) left right →
    j = .member ∧ (∃ name, a.content? left = some (.ident name)) ∧ a.IsPath right
  target : ∀ target high low, c = .splice target high low → a.IsPath target

end Arena

/-- Below the node of an expression are the nodes of its parts. -/
theorem Expr.below_top (lo : Nat) (e : Expr) :
    (e.top lo).below = (e.parts lo).map fun p => p.1 + p.2.size := by
  cases e with
  | ref path => obtain ⟨s, _ | ⟨t, rest⟩⟩ := path <;> rfl
  | index span target bit => exact if_pos rfl
  | range span target high low => exact if_neg (bounds_apart low)
  | _ => rfl

/-- What is written on the node of an expression fits it. -/
theorem Expr.fits {e : Expr} (stands : e.Stands a lo) : a.Fits (lo + e.size) (e.top lo) where
  below n under := by
    rw [below_top] at under
    obtain ⟨p, part, rfl⟩ := List.mem_map.mp under
    exact ⟨Nat.lt_of_lt_of_le p.2.size_pos (Nat.le_add_left _ _), (parts_below part).2⟩
  joint j left right joins := by
    cases e with
    | ref path =>
      obtain ⟨s, _ | ⟨t, rest⟩⟩ := path
      · cases joins
      · cases joins
        have first := parts_stand stands (lo, ref ⟨s, []⟩) (by simp [parts])
        have behind := parts_stand stands (lo + 1, ref ⟨t, rest⟩) (by simp [parts])
        exact ⟨rfl, ⟨_, (top_stands first).content⟩, ⟨_, names?_stands behind⟩⟩
    | _ => cases joins
  target target high low bits := by
    cases e with
    | ref path =>
      obtain ⟨s, _ | ⟨t, rest⟩⟩ := path <;> cases bits
    | index span path bit =>
      cases bits
      exact ⟨_, names?_stands (parts_stand stands (lo, ref path) (by simp [parts]))⟩
    | range span path high low =>
      cases bits
      exact ⟨_, names?_stands (parts_stand stands (lo, ref path) (by simp [parts]))⟩
    | _ => cases bits

/-! ## Visiting -/

/-- The nodes of a path that are visited, where all of them stand behind the first `lo` nodes. -/
def Path.visitsOver (enters : Nat → Bool) : Nat → List Segment → List Nat
  | lo, [] => [lo + 1]
  | lo, t :: rest =>
    let id := lo + (2 * (t :: rest).length + 1)
    if enters id then id :: ([lo + 1] ++ visitsOver enters (lo + 1) rest) else [id]

/-- The nodes of a path that are visited. -/
def Path.visits (enters : Nat → Bool) (lo : Nat) (p : Path) : List Nat :=
  visitsOver enters lo p.tail

/-- The nodes of an expression that are visited. -/
def Expr.visits (enters : Nat → Bool) : Nat → Expr → List Nat
  | lo, ref path => path.visits enters lo
  | lo, const .. => [lo + 1]
  | lo, binary _ _ left right =>
    let id := lo + (left.size + right.size + 1)
    if enters id then id :: (visits enters lo left ++ visits enters (lo + left.size) right)
    else [id]
  | lo, unary _ _ operand =>
    let id := lo + (operand.size + 1)
    if enters id then id :: visits enters lo operand else [id]
  | lo, choice _ cond yes no =>
    let id := lo + (cond.size + yes.size + no.size + 1)
    if enters id then
      id :: (visits enters lo cond ++ visits enters (lo + cond.size) yes ++
        visits enters (lo + cond.size + yes.size) no)
    else [id]
  | lo, index _ target bit =>
    let id := lo + (target.size + bit.size + 1)
    if enters id then id :: (target.visits enters lo ++ visits enters (lo + target.size) bit)
    else [id]
  | lo, range _ target high low =>
    let id := lo + (target.size + high.size + low.size + 1)
    if enters id then
      id :: (target.visits enters lo ++ visits enters (lo + target.size) high ++
        visits enters (lo + target.size + high.size) low)
    else [id]

variable {enters : Nat → Bool}

/-- The nodes that are visited from the node of an expression on. -/
theorem Expr.walk_stands {e : Expr} (stands : e.Stands a lo) :
    a.walk enters (lo + e.size) = some (e.visits enters lo) := by
  refine pass_stands (fun lo e => some (e.visits enters lo)) ?_ stands
  intro walk lo e stands below
  rw [Arena.walkStep, Arena.look?_of_content (top_stands stands).content, Option.bind_eq_bind, Option.bind_some]
  cases e with
  | ref path =>
    obtain ⟨s, _ | ⟨t, rest⟩⟩ := path
    · exact ite_self _
    · simp only [parts, List.forall_mem_cons] at below
      simp only [top, Option.bind_eq_bind, below, Option.bind_some, Option.pure_def, ← apply_ite some]
      rfl
  | const span value => exact ite_self _
  | range span target high low =>
    simp only [parts, List.forall_mem_cons] at below
    simp only [top, Option.bind_eq_bind, below, Option.bind_some, Option.pure_def, if_neg (bounds_apart low), ← apply_ite some]
    rfl
  | _ =>
    simp only [parts, List.forall_mem_cons] at below
    simp only [top, Option.bind_eq_bind, below, Option.bind_some, Option.pure_def, if_true, ← apply_ite some]
    rfl

/-- Nodes are visited once each: in some order they are the `n` nodes behind the first `lo`. -/
def VisitsOnce (lo n : Nat) (visited : List Nat) : Prop := visited.Perm (List.range' (lo + 1) n)

theorem VisitsOnce.append {n m : Nat} {first second : List Nat} (front : VisitsOnce lo n first)
    (back : VisitsOnce (lo + n) m second) : VisitsOnce lo (n + m) (first ++ second) := by
  rw [VisitsOnce, ← List.range'_append_1, Nat.add_right_comm]
  exact List.Perm.append front back

/-- The node behind all of its parts is visited before them. -/
theorem VisitsOnce.cons {n : Nat} {visited : List Nat} (parts : VisitsOnce lo n visited) :
    VisitsOnce lo (n + 1) ((lo + (n + 1)) :: visited) := by
  rw [VisitsOnce, List.range'_1_concat, Nat.add_right_comm, Nat.add_assoc]
  exact (List.perm_append_singleton _ _).symm.trans (List.Perm.append_right _ parts)

theorem Path.visitsOver_once (lo : Nat) (rest : List Segment) :
    VisitsOnce lo (2 * rest.length + 1) (visitsOver (fun _ => true) lo rest) := by
  induction rest generalizing lo with
  | nil => exact .refl _
  | cons t rest ih =>
    have first : VisitsOnce lo 1 [lo + 1] := .refl _
    have parts := (first.append (ih (lo + 1))).cons
    rw [visitsOver, if_pos rfl, List.length_cons]
    rwa [show 1 + (2 * rest.length + 1) + 1 = 2 * (rest.length + 1) + 1 by omega] at parts

/-- Where every node is entered, each node of an expression is visited once. -/
theorem Expr.visits_once (e : Expr) (lo : Nat) :
    VisitsOnce lo e.size (e.visits (fun _ => true) lo) := by
  induction e generalizing lo with
  | ref path => exact Path.visitsOver_once lo path.tail
  | const span value => exact .refl _
  | binary span op left right ihl ihr =>
    rw [visits, if_pos rfl]
    exact ((ihl lo).append (ihr _)).cons
  | unary span op operand ih =>
    rw [visits, if_pos rfl]
    exact (ih lo).cons
  | choice span cond yes no ihc ihy ihn =>
    rw [visits, if_pos rfl]
    refine (((ihc lo).append (ihy _)).append ?_).cons
    rw [← Nat.add_assoc]
    exact ihn _
  | index span target bit ih =>
    rw [visits, if_pos rfl]
    exact ((Path.visitsOver_once lo target.tail).append (ih _)).cons
  | range span target high low ihh ihl =>
    rw [visits, if_pos rfl]
    refine (((Path.visitsOver_once lo target.tail).append (ihh _)).append ?_).cons
    rw [← Nat.add_assoc]
    exact ihl _

/-! ## Texts -/

theorem Path.text_name (s : Segment) : (⟨s, []⟩ : Path).text = s.name :=
  String.intercalate_singleton

theorem Path.text_joint (s t : Segment) (rest : List Segment) :
    (⟨s, t :: rest⟩ : Path).text = s.name ++ "." ++ (⟨t, rest⟩ : Path).text :=
  String.intercalate_cons_cons

/-- The list form of the nodes is that of the expression. -/
theorem Expr.listForm_stands {e : Expr} (stands : e.Stands a lo) :
    a.listForm (lo + e.size) = some e.listForm := by
  refine pass_stands (fun _ e => some e.listForm) ?_ stands
  intro listForm lo e stands below
  rw [Arena.listFormStep, (top_stands stands).content, Option.bind_eq_bind, Option.bind_some]
  cases e with
  | ref path =>
    obtain ⟨s, _ | ⟨t, rest⟩⟩ := path
    · exact congrArg some (Path.text_name s).symm
    · simp only [parts, List.forall_mem_cons] at below
      simp only [top, Option.bind_eq_bind, below, Option.bind_some, Option.pure_def, Expr.listForm,
        Path.text_name, Path.text_joint]
  | const span value => rfl
  | unary span op operand =>
    simp only [parts, List.forall_mem_cons] at below
    cases op <;> simp only [top, Option.bind_eq_bind, below, Option.bind_some, Option.pure_def] <;>
      rfl
  | range span target high low =>
    simp only [parts, List.forall_mem_cons] at below
    simp only [top, Option.bind_eq_bind, below, Option.bind_some, Option.pure_def,
      if_neg (bounds_apart low)]
    rfl
  | _ =>
    simp only [parts, List.forall_mem_cons] at below
    simp only [top, Option.bind_eq_bind, below, Option.bind_some, Option.pure_def, if_true]
    rfl

/-- The VHDL text of the nodes is that of the expression. -/
theorem Expr.vhdl_stands {e : Expr} (stands : e.Stands a lo) :
    a.vhdl (lo + e.size) = some e.vhdl := by
  refine pass_stands (fun _ e => some e.vhdl) ?_ stands
  intro vhdl lo e stands below
  rw [Arena.vhdlStep, (top_stands stands).content, Option.bind_eq_bind, Option.bind_some]
  cases e with
  | ref path =>
    obtain ⟨s, _ | ⟨t, rest⟩⟩ := path
    · exact congrArg some (Path.text_name s).symm
    · simp only [parts, List.forall_mem_cons] at below
      simp only [top, Option.bind_eq_bind, below, Option.bind_some, Option.pure_def, Expr.vhdl,
        Path.text_name, Path.text_joint]
  | const span value => rfl
  | range span target high low =>
    simp only [parts, List.forall_mem_cons] at below
    simp only [top, Option.bind_eq_bind, below, Option.bind_some, Option.pure_def,
      ← apply_ite some]
    rfl
  | _ =>
    simp only [parts, List.forall_mem_cons] at below
    simp only [top, Option.bind_eq_bind, below, Option.bind_some, Option.pure_def, BEq.rfl, if_true]
    rfl

/-! ## Dotted paths -/

namespace Arena

theorem isMember_of_content {id : Nat} {c : Content} (found : a.content? id = some c) :
    a.isMember id = c.isMember := by
  rw [isMember, found, Option.any_some]

/-- The names of those among the nodes visited that are dotted paths. -/
def dottedNames (a : Arena) (visited : List Nat) : Option (List (Option (List String))) :=
  (visited.filter a.isMember).mapM a.names?

theorem dottedNames_append (first second : List Nat) : a.dottedNames (first ++ second) = do
    let front ← a.dottedNames first
    let back ← a.dottedNames second
    return front ++ back := by
  rw [dottedNames, List.filter_append, List.mapM_append]
  rfl

theorem dottedNames_cons {id : Nat} {c : Content} (found : a.content? id = some c)
    (other : c.isMember = false) (visited : List Nat) :
    a.dottedNames (id :: visited) = a.dottedNames visited := by
  have plain := isMember_of_content found
  rw [dottedNames, List.filter_cons_of_neg (by simp [plain, other]), dottedNames]

/-- A node that joins no names counts for nothing, and what is below it is visited. -/
theorem dottedNames_visits {id : Nat} {c : Content} (found : a.content? id = some c)
    (other : c.isMember = false) (parts : List Nat) :
    a.dottedNames (if !a.isMember id then id :: parts else [id]) = a.dottedNames parts := by
  rw [isMember_of_content found, other, Bool.not_false, if_pos rfl, dottedNames_cons found other]

/-- A node that joins names counts alone where what is below it is not visited. -/
theorem dottedNames_member {id : Nat} {names : Option (List String)} (joins : a.isMember id = true)
    (found : a.names? id = some names) (parts : List Nat) :
    a.dottedNames (if !a.isMember id then id :: parts else [id]) = some [names] := by
  rw [joins, Bool.not_true, if_neg Bool.false_ne_true, dottedNames, List.filter_cons_of_pos joins,
    List.filter_nil, List.mapM_cons, found, List.mapM_nil]
  rfl

end Arena

theorem Path.dottedNames_stands {p : Path} (stands : p.Stands a lo) :
    a.dottedNames (p.visits (fun id => !a.isMember id) lo) =
      some ((Expr.paths.dotted p).map fun p => some p.names) := by
  obtain ⟨s, tail⟩ := p
  cases tail with
  | nil =>
    rw [visits, visitsOver, Arena.dottedNames_cons stands.content rfl]
    rfl
  | cons t rest =>
    have joins : a.isMember (lo + (2 * (t :: rest).length + 1)) = true :=
      Arena.isMember_of_content stands.2.2.content
    have names : a.names? (lo + (2 * (t :: rest).length + 1)) =
        some (some (⟨s, t :: rest⟩ : Path).names) :=
      Expr.names?_stands (e := .ref ⟨s, t :: rest⟩) stands
    rw [visits, visitsOver, Arena.dottedNames_member joins names]
    rfl

/-- Where parts of paths are not visited, the dotted paths among the nodes of an expression are those
of the expression. -/
theorem Expr.dottedNames_stands {e : Expr} (stands : e.Stands a lo) :
    a.dottedNames (e.visits (fun id => !a.isMember id) lo) =
      some (e.paths.map fun p => some p.names) := by
  induction e generalizing lo with
  | ref path => exact Path.dottedNames_stands stands
  | const span value =>
    rw [visits, Arena.dottedNames_cons stands.content rfl]
    rfl
  | binary span op left right ihl ihr =>
    obtain ⟨first, second, own⟩ := stands
    rw [visits, Arena.dottedNames_visits own.content rfl, Arena.dottedNames_append, ihl first,
      ihr second, paths, List.map_append]
    rfl
  | unary span op operand ih =>
    obtain ⟨first, own⟩ := stands
    rw [visits, Arena.dottedNames_visits own.content rfl, ih first, paths]
  | choice span cond yes no ihc ihy ihn =>
    obtain ⟨first, second, third, own⟩ := stands
    rw [visits, Arena.dottedNames_visits own.content rfl, Arena.dottedNames_append,
      Arena.dottedNames_append, ihc first, ihy second, ihn third, paths, List.map_append,
      List.map_append]
    rfl
  | index span target bit ih =>
    obtain ⟨first, second, own⟩ := stands
    rw [visits, Arena.dottedNames_visits own.content rfl, Arena.dottedNames_append,
      Path.dottedNames_stands first, ih second, paths, List.map_append]
    rfl
  | range span target high low ihh ihl =>
    obtain ⟨first, second, third, own⟩ := stands
    rw [visits, Arena.dottedNames_visits own.content rfl, Arena.dottedNames_append,
      Arena.dottedNames_append, Path.dottedNames_stands first, ihh second, ihl third, paths,
      List.map_append, List.map_append]
    rfl

/-! ## Lowering -/

namespace Vhdl

/-- Lowers an expression and stores what comes out. -/
def Relower.stored (m : Lower Expr) : Relower Nat := fun dst l =>
  match m.run.run l with
  | (.ok e, l') => some (.ok (e.store dst), l')
  | (.error e, l') => some (.error e, l')

/-- A step behind one that stores what comes out. -/
theorem Relower.stored_bind (m : Lower Expr) (f : Nat → Relower Nat) (dst : Arena) (l : Lowering) :
    (stored m >>= f) dst l = match m.run.run l with
      | (.ok e, l') => f (e.store dst).1 (e.store dst).2 l'
      | (.error e, l') => some (.error e, l') := by
  show (stored m dst l).bind _ = _
  rw [stored]
  rcases m.run.run l with ⟨_ | _, _⟩ <;> rfl

/-- What is looked up is there. -/
theorem Relower.look_bind {α β : Type} {found? : Option α} {x : α} (found : found? = some x)
    (f : α → Relower β) : (liftM found? >>= f : Relower β) = f x := by
  rw [found]
  rfl

theorem Relower.lift_bind {α β : Type} (m : Lower α) (f : α → Relower β) (dst : Arena)
    (l : Lowering) : (lift m >>= f : Relower β) dst l = match m.run.run l with
      | (.ok x, l') => f x dst l'
      | (.error e, l') => some (.error e, l') := by
  simp only [bind, StateT.bind, ExceptT.bind, ExceptT.mk, ExceptT.bindCont, lift]
  rcases m.run.run l with ⟨_ | _, _⟩ <;> rfl

theorem Lower.run_ref (p : Path) (l : Lowering) :
    (Lower.expr (.ref p)).run.run l = match (Lower.path p).run.run l with
      | (.ok p, l') => (.ok (.ref p), l')
      | (.error e, l') => (.error e, l') := by
  rw [Lower.expr, Lower.run_bind]
  rcases (Lower.path p).run.run l with ⟨_ | _, _⟩ <;> rfl

theorem cover_self (span : Span) : span.cover span = span := by
  rw [Span.cover, if_pos BEq.rfl, Nat.min_self, Nat.max_self]

theorem Relower.pathAt_span (span : Span) (head : String) (tail : List String) :
    (pathAt span head tail).span = span := by
  rw [Path.span, pathAt]
  induction tail generalizing head with
  | nil => rfl
  | cons name tail ih => rw [List.map_cons, Path.spanOver, ih name, cover_self]

/-- Only the names of a path and the place of the whole count for the signal that stands for it. -/
theorem Relower.run_wire_pathAt (p : Path) (l : Lowering) :
    (Lower.wire (pathAt p.span p.head.name (p.tail.map (·.name)))).run.run l =
      (Lower.wire p).run.run l := by
  have names : (pathAt p.span p.head.name (p.tail.map (·.name))).tail.map (·.name) =
      p.tail.map (·.name) := by
    simp only [pathAt, List.map_map, Function.comp_def]
  have head : (pathAt p.span p.head.name (p.tail.map (·.name))).head.name = p.head.name := rfl
  rw [Lower.run_wire, Lower.run_wire, pathAt_span]
  simp only [portName, signalName, Path.text, Path.names, Path.segments, List.map_cons, names, head]

end Vhdl

open Vhdl

/-- Lowering the nodes gives the nodes of the lowered expression. -/
theorem Expr.lower_stands {e : Expr} (stands : e.Stands a lo) :
    a.lower (lo + e.size) = Relower.stored (Lower.expr e) := by
  refine pass_stands (fun _ e => Relower.stored (Lower.expr e)) ?_ stands
  intro lower lo e stands below
  have own := top_stands stands
  rw [Arena.lowerStep, Relower.look_bind own.span, Relower.look_bind own.content]
  funext dst l
  cases e with
  | ref path =>
    obtain ⟨s, _ | ⟨t, rest⟩⟩ := path
    · rfl
    · have names : a.names? (lo + (ref ⟨s, t :: rest⟩).size) =
          some (some (s.name :: (t :: rest).map (·.name))) := names?_stands stands
      have wired : (Lower.wire (Relower.pathAt (ref ⟨s, t :: rest⟩).span s.name
          ((t :: rest).map (·.name)))).run.run l = (Lower.wire ⟨s, t :: rest⟩).run.run l :=
        Relower.run_wire_pathAt ⟨s, t :: rest⟩ l
      have dotted : Lower.path ⟨s, t :: rest⟩ = do
          return { head := ⟨← Lower.wire ⟨s, t :: rest⟩, (ref ⟨s, t :: rest⟩).span⟩ } := rfl
      simp only [top]
      rw [Relower.look_bind names, Relower.stored, Lower.run_ref, dotted, Lower.run_bind]
      simp only [Relower.lift_bind, wired]
      rcases (Lower.wire ⟨s, t :: rest⟩).run.run l with ⟨_ | signal, l⟩ <;> rfl
  | const span value => rfl
  | binary span op left right =>
    simp only [parts, List.forall_mem_cons] at below
    simp only [top, below]
    rw [Relower.stored_bind, Relower.stored, Lower.expr, Lower.run_bind]
    rcases (Lower.expr left).run.run l with ⟨_ | left', l⟩
    · rfl
    simp only [Relower.stored_bind, Lower.run_bind]
    rcases (Lower.expr right).run.run l with ⟨_ | right', l⟩ <;> rfl
  | unary span op operand =>
    simp only [parts, List.forall_mem_cons] at below
    simp only [top, below]
    rw [Relower.stored_bind, Relower.stored, Lower.expr, Lower.run_bind]
    rcases (Lower.expr operand).run.run l with ⟨_ | operand', l⟩ <;> rfl
  | choice span cond yes no =>
    simp only [parts, List.forall_mem_cons] at below
    simp only [top, below]
    rw [Relower.stored_bind, Relower.stored, Lower.expr, Lower.run_bind]
    rcases (Lower.expr cond).run.run l with ⟨_ | cond', l⟩
    · rfl
    simp only [Relower.stored_bind, Lower.run_bind]
    rcases (Lower.expr yes).run.run l with ⟨_ | yes', l⟩
    · rfl
    simp only
    rcases (Lower.expr no).run.run l with ⟨_ | no', l⟩ <;> rfl
  | index span target bit =>
    simp only [parts, List.forall_mem_cons] at below
    simp only [top, below, if_true]
    rw [Relower.stored_bind, Relower.stored, Lower.run_ref, Lower.expr, Lower.run_bind]
    rcases (Lower.path target).run.run l with ⟨_ | target', l⟩
    · rfl
    simp only [Relower.stored_bind, Lower.run_bind]
    rcases (Lower.expr bit).run.run l with ⟨_ | bit', l⟩ <;> rfl
  | range span target high low =>
    simp only [parts, List.forall_mem_cons] at below
    simp only [top, below, if_neg (bounds_apart low)]
    rw [Relower.stored_bind, Relower.stored, Lower.run_ref, Lower.expr, Lower.run_bind]
    rcases (Lower.path target).run.run l with ⟨_ | target', l⟩
    · rfl
    simp only [Relower.stored_bind, Lower.run_bind]
    rcases (Lower.expr high).run.run l with ⟨_ | high', l⟩
    · rfl
    simp only
    rcases (Lower.expr low).run.run l with ⟨_ | low', l⟩ <;> rfl

/-! ## Arenas that expressions are read into -/

/-- All passes from a node on come to an end, and do not look up what is not there. -/
structure Arena.PassesEnd (a : Arena) (id : Nat) : Prop where
  walk : ∀ enters, ∃ visited, a.walk enters id = some visited
  dotted : ∃ paths, a.dotted id = some paths
  pathText : ∃ text, a.pathText id = some text
  listForm : ∃ text, a.listForm id = some text
  vhdl : ∃ text, a.vhdl id = some text
  lower : ∀ dst l, ∃ result l', a.lower id dst l = some (result, l')

theorem Expr.passesEnd {e : Expr} (stands : e.Stands a lo) : a.PassesEnd (lo + e.size) where
  walk _ := ⟨_, walk_stands stands⟩
  dotted := ⟨_, by rw [Arena.dotted, walk_stands stands, Option.map_some]⟩
  pathText := ⟨_, pathText_stands stands⟩
  listForm := ⟨_, listForm_stands stands⟩
  vhdl := ⟨_, vhdl_stands stands⟩
  lower dst l := by
    rw [lower_stands stands, Relower.stored]
    rcases (Lower.expr e).run.run l with ⟨_ | _, _⟩
    · exact ⟨_, _, rfl⟩
    · exact ⟨_, _, rfl⟩

/-- The nodes of an arena are those of one tree: the root is the last node, what is written on any
node fits it, and from the root on all nodes are met once. -/
structure Arena.IsTree (a : Arena) (root : Nat) : Prop where
  last : 0 < root ∧ root = a.size
  fits : ∀ id, 0 < id → id ≤ a.size → ∃ span c, a.Holds id span c ∧ a.Fits id c
  visited : ∃ visited, a.walk (fun _ => true) root = some visited ∧
    visited.Perm (List.range' 1 a.size)

/-- An expression stands alone in the arena that it is read into. -/
theorem Arena.stands_of_parse {c : Cursor} {widths : Widths} {root : Nat} {a : Arena} {r : Reading}
    (parsed : Arena.parse c widths = (.ok (root, a), r)) :
    ∃ e, Expr.parse c widths = (.ok e, r) ∧ e.Stands a 0 ∧ root = 0 + e.size ∧
      a.size = 0 + e.size := by
  rw [Arena.parse_eq] at parsed
  rcases tree : Expr.parse c widths with ⟨_ | e, r'⟩
  · rw [tree] at parsed
    cases parsed
  · rw [tree] at parsed
    obtain ⟨stored, rfl⟩ := Prod.mk.inj parsed
    have stored : e.store {} = (root, a) := Except.ok.inj stored
    have sizes := e.store_numbers {}
    have stands := e.stands_store (Arena.Extends.refl (e.store {}).2)
    rw [stored] at sizes stands
    exact ⟨e, rfl, stands, sizes⟩

/-- What an expression is read into is one tree, and all passes over it come to an end. -/
theorem Arena.parse_isTree {c : Cursor} {widths : Widths} {root : Nat} {a : Arena} {r : Reading}
    (parsed : Arena.parse c widths = (.ok (root, a), r)) :
    a.IsTree root ∧ ∀ id, 0 < id → id ≤ a.size → a.PassesEnd id := by
  obtain ⟨e, -, stands, rfl, size⟩ := stands_of_parse parsed
  rw [← size]
  refine ⟨⟨⟨?_, rfl⟩, fun id counted inside => ?_, ?_⟩, fun id counted inside => ?_⟩
  · rw [size, Nat.zero_add]
    exact e.size_pos
  · obtain ⟨start, part, stands, rfl⟩ := e.partAt stands counted (size ▸ inside)
    exact ⟨_, _, part.top_stands stands, part.fits stands⟩
  · refine ⟨e.visits (fun _ => true) 0, ?_, ?_⟩
    · rw [size]
      exact e.walk_stands stands
    · rw [size, Nat.zero_add]
      exact e.visits_once 0
  · obtain ⟨start, part, stands, rfl⟩ := e.partAt stands counted (size ▸ inside)
    exact part.passesEnd stands

/-- What the passes give from the root on is what they give for the expression that is read. -/
theorem Arena.parse_agrees {c : Cursor} {widths : Widths} {root : Nat} {a : Arena} {r : Reading}
    (parsed : Arena.parse c widths = (.ok (root, a), r)) :
    ∃ e, Expr.parse c widths = (.ok e, r) ∧ a.size = e.size ∧
      a.listForm root = some e.listForm ∧ a.vhdl root = some e.vhdl ∧
      a.pathText root = some ((e.path?.map Path.text).getD "") ∧
      (a.dotted root).bind (·.mapM a.names?) = some (e.paths.map fun p => some p.names) ∧
      a.lower root = Relower.stored (Lower.expr e) := by
  obtain ⟨e, tree, stands, rfl, size⟩ := stands_of_parse parsed
  refine ⟨e, tree, size.trans (Nat.zero_add _), e.listForm_stands stands, e.vhdl_stands stands,
    e.pathText_stands stands, ?_, e.lower_stands stands⟩
  rw [Arena.dotted, e.walk_stands stands, Option.map_some, Option.bind_some]
  exact e.dottedNames_stands stands

/-- A sum of a port and a bit of a vector. -/
def portPlusBit : Cursor := .ofFile ⟨0, "", Bytes.ofString "u.p+v[i]", 0⟩

/-- It is read into seven nodes; both bounds of the bit selection are the fifth. -/
theorem Arena.parse_isTree_portPlusBit :
    ∃ a r, Arena.parse portPlusBit [("v", .literal 8)] = (.ok (7, a), r) ∧
      a.content? 6 = some (.splice 4 5 5) ∧ a.IsTree 7 ∧ a.PassesEnd 6 := by
  obtain ⟨e, r, parsed, stored⟩ : ∃ e r, Expr.parse portPlusBit [("v", .literal 8)] = (.ok e, r) ∧
      ((e.store {}).1, (e.store {}).2.size, (e.store {}).2.content? 6) =
        (7, 7, some (.splice 4 5 5)) := Expr.parsed_of_eq (by decide +kernel)
  have read : Arena.parse portPlusBit [("v", .literal 8)] = (.ok (e.store {}), r) := by
    rw [Arena.parse_eq, parsed, Except.map]
  generalize e.store {} = result at stored read
  obtain ⟨root, a⟩ := result
  obtain ⟨rfl, size, splice⟩ : root = 7 ∧ a.size = 7 ∧ a.content? 6 = some (.splice 4 5 5) := by
    simpa using stored
  obtain ⟨tree, ends⟩ := Arena.parse_isTree read
  exact ⟨a, r, read, splice, tree, ends 6 (by decide) (by rw [size]; decide)⟩

end CircuitCompiler
