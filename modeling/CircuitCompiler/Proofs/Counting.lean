import CircuitCompiler.Proofs.Levels
import CircuitCompiler.Proofs.Numbering

/-!
# Layers by counting

The layers of a graph can be found without looking at the dependencies of a node again and again:
every node counts how many of its dependencies are not done, and a node that is done counts down its
users. A node whose count comes down to zero goes into the next layer. The counts are then those of
the dependencies that are left, so the layers found in this way are the layers of the graph.

* `Graph.Counters`, `Graph.countedSort`: the tables that are counted with, and the whole sorting;
* `Graph.release_foldl`: what counting down a list of users leaves behind;
* `Graph.countedRounds_eq`: round by round, the layers;
* `Graph.countedSort_sorts`: what the sorting is worth, for all tables that fit the graph.
-/

namespace CircuitCompiler

namespace Graph

open Relation

/-! ## Counting down -/

/-- The users of each node, and how many dependencies each node waits for. -/
structure Counters where
  users : List (List Nat)
  waits : List Int
  deriving DecidableEq, Repr

/-- The counts when one dependency of a node is done, and the nodes that wait for nothing more. -/
def release (s : List Int × List Nat) (user : Nat) : List Int × List Nat :=
  let waits := s.1.modify user (· - 1)
  (waits, if waits[user]? = some 0 then s.2 ++ [user] else s.2)

/-- The users that are counted down when the nodes of a layer are done. -/
def Counters.usersOf (c : Counters) (layer : List Nat) : List Nat :=
  layer.flatMap fun v => c.users.getD v []

/-- Layer after layer, from one that is ready on, and the counts in the end. Every layer takes a node
away, so the number of nodes bounds the number of layers. -/
def countedRounds (c : Counters) : Nat → List Int → List Nat → List (List Nat) × List Int
  | 0, waits, _ => ([], waits)
  | fuel + 1, waits, layer =>
    if layer.isEmpty then ([], waits)
    else
      let (waits', next) := (c.usersOf layer).foldl release (waits, [])
      let (later, final) := countedRounds c fuel waits' (next.mergeSort (· ≤ ·))
      (layer :: later, final)

/-- The result of sorting a graph. -/
structure Sorting where
  order : List Nat
  layers : List (List Nat)
  cyclic : Bool
  blocked : List Nat
  deriving DecidableEq, Repr

/-- The nodes that wait for nothing from the start. -/
def Counters.ready (c : Counters) (size : Nat) : List Nat :=
  (List.range size).filter fun v => c.waits[v]? = some 0

/-- Sorts a graph by counting. -/
def countedSort (g : Graph) (c : Counters) : Sorting :=
  let (layers, waits) := countedRounds c g.size c.waits (c.ready g.size)
  let cyclic := layers.flatten.length != g.size
  { order := layers.flatten
    layers
    cyclic
    blocked := if cyclic then (List.range g.size).filter fun v => 0 < waits.getD v 0 else [] }

/-- What sorting a graph is to give. -/
def sorting (g : Graph) : Sorting := ⟨g.order, g.layers, g.isCyclic, g.blocked⟩

/-- The counters fit the graph: a node is listed as a user of another as often as it depends on it,
and it waits for as many dependencies as it has. -/
structure Counters.Fit (c : Counters) (g : Graph) : Prop where
  size : c.users.length = g.size
  users : ∀ v w, (c.users.getD w []).count v = (g.depsOf v).count w
  waits : c.waits = g.deps.map fun ds => (ds.length : Int)

/-- The counters of a graph. -/
def counters (g : Graph) : Counters where
  users := (List.range g.size).map fun w =>
    (List.range g.size).flatMap fun v => List.replicate ((g.depsOf v).count w) v
  waits := g.deps.map fun ds => (ds.length : Int)

/-! ## Counts -/

variable {g : Graph} {c : Counters}

theorem getD_modify (waits : List Int) (user u : Nat) (inside : user < waits.length) :
    (waits.modify user (· - 1)).getD u 0 = waits.getD u 0 - if u = user then 1 else 0 := by
  rw [List.getD_eq_getElem?_getD, List.getD_eq_getElem?_getD, List.getElem?_modify]
  by_cases same : user = u
  · subst same
    simp [List.getElem?_eq_getElem inside]
  · rw [if_neg (Ne.symm same), Int.sub_zero]
    simp [same]

/-- What counting down the users of a list leaves behind: each count goes down as often as its node
is listed, and the nodes whose counts come down to zero are collected, each once. -/
theorem release_foldl (us : List Nat) (waits : List Int) (next : List Nat)
    (inside : ∀ u ∈ us, u < waits.length) :
    ∃ waits' hits, us.foldl release (waits, next) = (waits', next ++ hits) ∧
      waits'.length = waits.length ∧ (∀ u, waits'.getD u 0 = waits.getD u 0 - us.count u) ∧
        hits.Nodup ∧ ∀ u, u ∈ hits ↔ 0 < waits.getD u 0 ∧ waits.getD u 0 ≤ us.count u := by
  induction us generalizing waits next with
  | nil =>
    refine ⟨waits, [], by simp, rfl, by simp, List.nodup_nil, fun u => ?_⟩
    simp
  | cons user us ih =>
    obtain ⟨here, later⟩ := List.forall_mem_cons.mp inside
    have counts := fun u => getD_modify waits user u here
    have length : (waits.modify user (· - 1)).length = waits.length := List.length_modify ..
    have zero : (waits.modify user (· - 1))[user]? = some 0 ↔ waits.getD user 0 = 1 := by
      have at_user := counts user
      rw [List.getD_eq_getElem _ _ (by rwa [length]), if_pos rfl] at at_user
      rw [List.getElem?_eq_getElem (by rwa [length]), Option.some.injEq, at_user]
      omega
    obtain ⟨waits', hits, run, length', counts', distinct, hit⟩ :=
      ih (waits.modify user (· - 1)) (if waits.getD user 0 = 1 then next ++ [user] else next)
        (by rwa [length])
    have step : (user :: us).foldl release (waits, next) = us.foldl release
        (waits.modify user (· - 1), if waits.getD user 0 = 1 then next ++ [user] else next) := by
      rw [List.foldl_cons, release]
      simp only [zero]
    have count : ∀ u, ((user :: us).count u : Int) = us.count u + if u = user then 1 else 0 := by
      intro u
      rw [List.count_cons]
      by_cases same : u = user
      · simp [same]
      · simp [same, Ne.symm same]
    -- the node is collected here if its count was one; below zero it is not collected again
    by_cases one : waits.getD user 0 = 1
    · rw [if_pos one] at run step
      refine ⟨waits', user :: hits, by rw [step, run]; simp, length'.trans length, fun u => ?_,
        List.nodup_cons.mpr ⟨fun again => ?_, distinct⟩, fun u => ?_⟩
      · rw [counts', counts, count]
        omega
      · have := (hit user).mp again
        rw [counts, if_pos rfl] at this
        omega
      · rw [List.mem_cons, hit, counts, count]
        by_cases same : u = user
        · subst same
          rw [if_pos rfl]
          omega
        · rw [if_neg same]
          omega
    · rw [if_neg one] at run step
      refine ⟨waits', hits, by rw [step, run], length'.trans length, fun u => ?_, distinct,
        fun u => ?_⟩
      · rw [counts', counts, count]
        omega
      · rw [hit, counts, count]
        by_cases same : u = user
        · subst same
          rw [if_pos rfl]
          omega
        · rw [if_neg same]
          omega

/-- How many dependencies of a node are not done. -/
def waiting (g : Graph) (done : List Nat) (v : Nat) : Nat := (g.depsOf v).countP (· ∉ done)

theorem waiting_eq_zero_iff {done : List Nat} {v : Nat} :
    g.waiting done v = 0 ↔ g.isReady done v = true := by
  rw [waiting, List.countP_eq_zero, isReady_iff]
  simp [DependsOn]

/-- The dependencies that are left, and those that a layer takes away. -/
theorem waiting_append {done layer : List Nat} (apart : ∀ v ∈ layer, v ∉ done) (u : Nat) :
    g.waiting (done ++ layer) u + (g.depsOf u).countP (· ∈ layer) = g.waiting done u := by
  unfold waiting
  induction g.depsOf u with
  | nil => rfl
  | cons d ds ih =>
    have here : (if d ∉ done ++ layer then 1 else 0) + (if d ∈ layer then 1 else 0) =
        if d ∉ done then 1 else 0 := by
      by_cases taken : d ∈ layer
      · simp [taken, apart d taken]
      · simp [taken]
    simp only [List.countP_cons, decide_eq_true_eq]
    omega

namespace Counters.Fit

variable (fit : c.Fit g)

include fit

theorem bounded : g.Bounded := by
  intro v w dep
  by_contra outside
  have unlisted : c.users.length ≤ w := fit.size ▸ Nat.le_of_not_lt outside
  have none := fit.users v w
  rw [List.getD_eq_default _ _ unlisted, List.count_nil] at none
  exact List.count_eq_zero.mp none.symm dep

theorem waits_length : c.waits.length = g.size := by
  rw [fit.waits, List.length_map]
  rfl

theorem waits_start (u : Nat) : c.waits.getD u 0 = g.waiting [] u := by
  rw [fit.waits, List.getD_eq_getElem?_getD, List.getElem?_map, waiting, depsOf,
    List.getD_eq_getElem?_getD]
  cases g.deps[u]? with
  | none => rfl
  | some ds => simp

/-- A node is counted down for a layer once for each dependency in it. -/
theorem count_usersOf {layer : List Nat} (distinct : layer.Nodup) (u : Nat) :
    (c.usersOf layer).count u = (g.depsOf u).countP (· ∈ layer) := by
  induction layer with
  | nil => simp [usersOf]
  | cons v layer ih =>
    obtain ⟨new, distinct⟩ := List.nodup_cons.mp distinct
    have split : ∀ ds : List Nat,
        ds.countP (· ∈ v :: layer) = ds.count v + ds.countP (· ∈ layer) := by
      intro ds
      induction ds with
      | nil => rfl
      | cons d ds ih =>
        rw [List.countP_cons, List.countP_cons, List.count_cons, ih]
        by_cases same : d = v
        · subst same
          simp [new]
          omega
        · simp [same]
          omega
    rw [split, ← fit.users, ← ih distinct]
    simp [usersOf]

theorem usersOf_inside (layer : List Nat) : ∀ u ∈ c.usersOf layer, u < g.size := by
  intro u hu
  obtain ⟨v, -, hu⟩ := List.mem_flatMap.mp hu
  by_contra outside
  have none : g.depsOf u = [] := List.getD_eq_default _ _ (Nat.le_of_not_lt outside)
  have count := fit.users u v
  rw [none, List.count_nil] at count
  exact List.count_eq_zero.mp count hu

end Counters.Fit

/-! ## Rounds -/

/-- Where a run of counting stands: the nodes `done` are done, with all that they depend on, the
nodes `left` are left in increasing order, and the counts are those of dependencies that are left. -/
structure Stands (g : Graph) (done left : List Nat) (waits : List Int) : Prop where
  left : left = (List.range g.size).filter (· ∉ done)
  closed : ∀ v ∈ done, g.isReady done v = true
  length : waits.length = g.size
  counts : ∀ u, waits.getD u 0 = g.waiting done u

variable {done left : List Nat} {waits : List Int}

theorem Stands.start (fit : c.Fit g) : g.Stands [] (List.range g.size) c.waits where
  left := by simp
  closed := by simp
  length := fit.waits_length
  counts := fit.waits_start

theorem Stands.nodup (h : g.Stands done left waits) : left.Nodup :=
  h.left ▸ List.nodup_range.filter _

theorem Stands.mem_left (h : g.Stands done left waits) {v : Nat} :
    v ∈ left ↔ v < g.size ∧ v ∉ done := by
  rw [h.left]
  simp

theorem isReady_append {v : Nat} (more : List Nat) (ready : g.isReady done v = true) :
    g.isReady (done ++ more) v = true :=
  isReady_iff.mpr fun w dep => List.mem_append_left more (isReady_iff.mp ready w dep)

theorem Stands.apart (h : g.Stands done left waits) :
    ∀ v ∈ left.filter (g.isReady done), v ∉ done := fun _ hv =>
  (h.mem_left.mp (List.mem_filter.mp hv).1).2

/-- Behind the nodes that are ready, where each node was counted down once for each of them that it
depends on. -/
theorem Stands.append (h : g.Stands done left waits) {waits' : List Int}
    (length : waits'.length = waits.length)
    (counts : ∀ u, waits'.getD u 0 =
      waits.getD u 0 - (g.depsOf u).countP (· ∈ left.filter (g.isReady done))) :
    g.Stands (done ++ left.filter (g.isReady done)) (left.filter fun v => !g.isReady done v)
      waits' where
  left := by
    rw [h.left, List.filter_filter]
    refine List.filter_congr fun v hv => ?_
    rw [List.mem_range] at hv
    simp only [List.mem_append, List.mem_filter, Bool.decide_and, Bool.decide_or, decide_not]
    by_cases old : v ∈ done <;> cases g.isReady done v <;> simp [old, hv]
  closed := by
    refine List.forall_mem_append.mpr ⟨fun v hv => ?_, fun v hv => ?_⟩
    · exact isReady_append _ (h.closed v hv)
    · exact isReady_append _ (List.mem_filter.mp hv).2
  length := length.trans h.length
  counts := by
    intro u
    rw [counts, h.counts, ← waiting_append h.apart u]
    omega

/-- The nodes that come down to zero when those that are ready are done: they waited for some of
them and for no other. -/
theorem Stands.mem_next_iff (h : g.Stands done left waits) {u : Nat} :
    u ∈ (left.filter fun v => !g.isReady done v).filter
        (g.isReady (done ++ left.filter (g.isReady done))) ↔
      0 < g.waiting done u ∧
        g.waiting done u ≤ (g.depsOf u).countP (· ∈ left.filter (g.isReady done)) := by
  have split : g.waiting (done ++ left.filter (g.isReady done)) u + _ = g.waiting done u :=
    waiting_append h.apart u
  rw [List.mem_filter, List.mem_filter, ← waiting_eq_zero_iff, Bool.not_eq_true',
    Bool.eq_false_iff, ne_eq, ← waiting_eq_zero_iff, h.mem_left]
  constructor
  · rintro ⟨⟨-, waits⟩, zero⟩
    exact ⟨Nat.pos_of_ne_zero waits, by omega⟩
  · rintro ⟨waits, few⟩
    refine ⟨⟨⟨?_, fun old => ?_⟩, Nat.ne_of_gt waits⟩, by omega⟩
    · by_contra outside
      have none : g.depsOf u = [] := List.getD_eq_default _ _ (Nat.le_of_not_lt outside)
      simp [waiting, none] at waits
    · rw [waiting_eq_zero_iff.mpr (h.closed u old)] at waits
      exact Nat.lt_irrefl 0 waits

/-- One round: counting down the users of the nodes that are ready, the nodes that come down to zero
are, when sorted, those of the next layer. -/
theorem Stands.step (fit : c.Fit g) (h : g.Stands done left waits) :
    ∃ waits' next,
      (c.usersOf (left.filter (g.isReady done))).foldl release (waits, []) = (waits', next) ∧
        g.Stands (done ++ left.filter (g.isReady done)) (left.filter fun v => !g.isReady done v)
          waits' ∧
        next.mergeSort (· ≤ ·) = (left.filter fun v => !g.isReady done v).filter
          (g.isReady (done ++ left.filter (g.isReady done))) := by
  have taken := fit.count_usersOf (h.nodup.filter (g.isReady done))
  obtain ⟨waits', hits, run, length, counts, distinct, hit⟩ :=
    release_foldl (c.usersOf (left.filter (g.isReady done))) waits []
      (by rw [h.length]; exact fit.usersOf_inside _)
  have stands := h.append length fun u => by rw [counts, taken]
  refine ⟨waits', hits, by simpa using run, stands, ?_⟩
  -- both sides are increasing, so it is enough that they have the same nodes
  refine List.Perm.eq_of_pairwise (fun a b _ _ => Nat.le_antisymm)
    (List.pairwise_mergeSort' _ _) ?_ ((List.mergeSort_perm _ _).trans ?_)
  · rw [stands.left]
    exact ((List.pairwise_lt_range.imp Nat.le_of_lt).filter _).filter _
  · refine (List.perm_ext_iff_of_nodup distinct ((h.nodup.filter _).filter _)).mpr fun u => ?_
    rw [hit, h.counts, taken, h.mem_next_iff]
    omega

/-- Round by round, counting finds the layers, and in the end the counts are those of dependencies
that have no place in them. -/
theorem countedRounds_eq (fit : c.Fit g) (fuel : Nat) (h : g.Stands done left waits) :
    ∃ final, countedRounds c fuel waits (left.filter (g.isReady done)) =
        (g.layersFrom fuel done left, final) ∧
      ∀ u, final.getD u 0 = g.waiting (done ++ (g.layersFrom fuel done left).flatten) u := by
  induction fuel generalizing done left waits with
  | zero => exact ⟨waits, rfl, by simpa [layersFrom] using h.counts⟩
  | succ fuel ih =>
    rw [countedRounds, layersFrom]
    by_cases stuck : (left.filter (g.isReady done)).isEmpty = true
    · simp only [stuck, if_true]
      exact ⟨waits, rfl, by simpa using h.counts⟩
    · obtain ⟨waits', next, run, stands, sorted⟩ := h.step fit
      obtain ⟨final, rounds, counts⟩ := ih stands
      simp only [stuck, Bool.false_eq_true, if_false, run, sorted, rounds]
      exact ⟨final, rfl, by simpa [List.append_assoc] using counts⟩

/-! ## The whole sorting -/

theorem Counters.Fit.ready_eq (fit : c.Fit g) :
    c.ready g.size = (List.range g.size).filter (g.isReady []) := by
  refine List.filter_congr fun v hv => ?_
  rw [List.mem_range] at hv
  have inside : v < c.waits.length := by rwa [fit.waits_length]
  have count := fit.waits_start v
  rw [List.getD_eq_getElem _ _ inside] at count
  rw [Bool.eq_iff_iff, ← waiting_eq_zero_iff, List.getElem?_eq_getElem inside, count,
    decide_eq_true_eq, Option.some.injEq]
  omega

/-- Counting sorts a graph as its layers do. -/
theorem countedSort_eq (fit : c.Fit g) : g.countedSort c = g.sorting := by
  obtain ⟨final, rounds, counts⟩ := countedRounds_eq fit g.size (.start fit)
  rw [← fit.ready_eq] at rounds
  have counts : ∀ u, final.getD u 0 = g.waiting g.order u := by simpa [order, layers] using counts
  have layers : g.layersFrom g.size [] (List.range g.size) = g.layers := rfl
  have order : g.layers.flatten = g.order := rfl
  have flag : (g.order.length != g.size) = g.isCyclic := rfl
  simp only [countedSort, rounds, layers, order, flag, sorting, Sorting.mk.injEq, true_and]
  by_cases cyclic : g.isCyclic = true
  · rw [if_pos cyclic]
    refine List.filter_congr fun v hv => ?_
    -- a node waits for nothing in the end if and only if it is in the order
    have waits : g.waiting g.order v = 0 ↔ v ∈ g.order := by
      rw [waiting_eq_zero_iff]
      constructor
      · intro ready
        by_contra out
        obtain ⟨w, blocked, dep⟩ :=
          blocked_dependsOn fit.bounded (mem_blocked.mpr ⟨List.mem_range.mp hv, out⟩)
        exact (mem_blocked.mp blocked).2 (isReady_iff.mp ready w dep)
      · intro ordered
        exact isReady_iff.mpr fun w dep => mem_order_of_reaches ordered (.single dep)
    rw [counts, Bool.eq_iff_iff, decide_eq_true_eq, Bool.not_eq_true', ← Bool.not_eq_true,
      List.contains_iff_mem, ← waits]
    omega
  · rw [if_neg cyclic]
    symm
    by_contra some
    exact cyclic ((isCyclic_iff_blocked g).mpr (List.exists_mem_of_ne_nil _ some))

/-- The result of sorting is right: the order holds the nodes that reach no cycle, each once and
behind all that it depends on; the layers are the parts of the order, each increasing, and a node is
in the one whose number is the length of the longest chain from it; what is left over is listed in
increasing order, and there is something left over if and only if there is a cycle. -/
structure Sorts (g : Graph) (s : Sorting) : Prop where
  distinct : s.order.Nodup
  ordered : ∀ v, v ∈ s.order ↔ v < g.size ∧ ¬g.ReachesCycle v
  behind : ∀ before v after, s.order = before ++ v :: after → ∀ w, g.DependsOn v w → w ∈ before
  parts : s.layers.flatten = s.order
  sorted : ∀ layer ∈ s.layers, layer.Pairwise (· < ·)
  layer : ∀ v k, v ∈ s.layers.getD k [] ↔ v < g.size ∧ g.LongestChain v k
  rest : ∀ v, v ∈ s.blocked ↔ v < g.size ∧ v ∉ s.order
  increasing : s.blocked.Pairwise (· < ·)
  cyclic : s.cyclic = true ↔ ∃ v, TransGen g.DependsOn v v

theorem sorting_sorts (bounded : g.Bounded) : g.Sorts g.sorting where
  distinct := g.nodup_order
  ordered := fun _ => mem_order_iff bounded
  behind := fun _ _ _ split _ dep => order_earlier split dep
  parts := rfl
  sorted := layersFrom_sorted _ _ _ List.pairwise_lt_range
  layer := fun _ _ => mem_layer_iff bounded
  rest := fun _ => mem_blocked
  increasing := List.pairwise_lt_range.filter _
  cyclic := isCyclic_iff bounded

/-- Sorting a graph by counting gives its order, its layers and what is left over, and these are
right. -/
theorem countedSort_sorts (fit : c.Fit g) :
    g.countedSort c = ⟨g.order, g.layers, g.isCyclic, g.blocked⟩ ∧ g.Sorts (g.countedSort c) :=
  ⟨countedSort_eq fit, countedSort_eq fit ▸ sorting_sorts fit.bounded⟩

/-! ## Counters of graphs -/

theorem count_replicates (n : Nat) (f : Nat → Nat) (u : Nat) :
    ((List.range n).flatMap fun v => List.replicate (f v) v).count u = if u < n then f u else 0 := by
  induction n with
  | zero => simp
  | succ n ih =>
    rw [List.range_succ, List.flatMap_append, List.count_append, ih, List.flatMap_singleton,
      List.count_replicate]
    by_cases same : n = u
    · subst same
      simp
    · have : u < n + 1 ↔ u < n := by omega
      simp [same, this]

/-- The counters of a graph fit it. -/
theorem counters_fit (bounded : g.Bounded) : g.counters.Fit g where
  size := by simp [counters]
  users := by
    intro v w
    have outside : ∀ v, ¬v < g.size → (g.depsOf v).count w = 0 := fun v out => by
      rw [depsOf, List.getD_eq_default _ _ (Nat.le_of_not_lt out), List.count_nil]
    by_cases inside : w < g.size
    · have listed : g.counters.users.getD w [] =
          (List.range g.size).flatMap fun v => List.replicate ((g.depsOf v).count w) v := by
        simp [counters, List.getD_eq_getElem?_getD, List.getElem?_range inside]
      rw [listed, count_replicates]
      split
      · rfl
      · next out => exact (outside v out).symm
    · rw [List.getD_eq_default _ _ (by simpa [counters] using inside), List.count_nil]
      exact (List.count_eq_zero.mpr fun dep => inside (bounded v w dep)).symm
  waits := rfl

theorem bounded_of_forall (h : ∀ ds ∈ g.deps, ∀ w ∈ ds, w < g.size) : g.Bounded := by
  intro v w dep
  rw [DependsOn, depsOf] at dep
  by_cases inside : v < g.deps.length
  · rw [List.getD_eq_getElem _ _ inside] at dep
    exact h _ (List.getElem_mem inside) w dep
  · rw [List.getD_eq_default _ _ (Nat.le_of_not_lt inside)] at dep
    cases dep

/-- Three layers, a node that depends on itself and one that depends on it. -/
def knotted : Graph := ⟨[[], [0], [0, 1, 1], [3], [3, 0]]⟩

theorem countedSort_sorts_knotted :
    knotted.countedSort knotted.counters = ⟨[0, 1, 2], [[0], [1], [2]], true, [3, 4]⟩ ∧
      knotted.Sorts (knotted.countedSort knotted.counters) := by
  have bounded : knotted.Bounded := bounded_of_forall (by decide)
  obtain ⟨same, sorts⟩ := countedSort_sorts (counters_fit bounded)
  exact ⟨same.trans (by decide), sorts⟩

end Graph

/-- The order in which the check puts the components of a design can be found by counting. -/
theorem Design.countedSort_graph (d : Design) :
    d.graph.countedSort d.graph.counters = d.graph.sorting :=
  Graph.countedSort_eq (Graph.counters_fit d.graph_bounded)

end CircuitCompiler
