import CircuitCompiler.Design.Check
import CircuitCompiler.Proofs.Graph
import Mathlib.Data.List.Nodup

/-!
# Components and their numbers

The check numbers the components of a design by the order of their names and works on the graph of
the numbers. Here the numbers are turned back into names: `Design.Instantiates` is the relation that
the graph stands for.

* `Design.dependsOn_iff`: an edge of the graph is an instance of a registered component;
* `Design.cyclic_iff`: a node lies on a cycle where its component instantiates itself, directly or
  not;
* `Design.mem_depNames`: the names of the components that a component instantiates.
-/

namespace CircuitCompiler.Design

open Relation

variable {d : Design}

/-- A component has an instance of a type, which need not be registered. -/
def Instantiates (d : Design) (user type : String) : Prop :=
  ∃ c ∈ d.components, c.name = user ∧ ∃ i ∈ c.instances, i.type = type

theorem Instantiates.mem_names {user type : String} (h : d.Instantiates user type) :
    user ∈ d.names := by
  obtain ⟨c, hc, rfl, -⟩ := h
  exact List.mem_map_of_mem hc

theorem get?_eq_some_iff {name : String} {c : Component} :
    d.get? name = some c ↔ c ∈ d.components ∧ c.name = name := by
  constructor
  · intro h
    exact ⟨List.mem_of_find?_eq_some h, by simpa using List.find?_some h⟩
  · rintro ⟨hc, rfl⟩
    cases found : d.get? c.name with
    | none =>
      have := List.find?_eq_none.mp found c hc
      simp at this
    | some c' =>
      have mem := List.mem_of_find?_eq_some found
      have name : c'.name = c.name := by simpa using List.find?_some found
      rw [List.inj_on_of_nodup_map d.distinct mem hc name]

theorem has_iff {name : String} : d.has name = true ↔ name ∈ d.names := has_eq_true_iff

theorem exists_of_mem_names {name : String} (h : name ∈ d.names) :
    ∃ c ∈ d.components, c.name = name := List.mem_map.mp h

/-! ## Names in order -/

theorem sortedNames_perm (d : Design) : d.sortedNames.Perm d.names := List.mergeSort_perm _ _

theorem mem_sortedNames {name : String} : name ∈ d.sortedNames ↔ name ∈ d.names :=
  d.sortedNames_perm.mem_iff

theorem nodup_sortedNames (d : Design) : d.sortedNames.Nodup :=
  d.sortedNames_perm.symm.nodup d.distinct

/-- Names come one behind the other. -/
theorem sortedNames_sorted (d : Design) : d.sortedNames.Pairwise (· < ·) := by
  have sorted : d.sortedNames.Pairwise fun a b => nameLe a b = true := by
    refine List.pairwise_mergeSort (fun a b c hab hbc => ?_) (fun a b => ?_) d.names
    · simp only [nameLe, decide_eq_true_eq] at *
      exact String.le_trans hab hbc
    · simp only [nameLe, Bool.or_eq_true, decide_eq_true_eq]
      exact String.le_total a b
  refine (sorted.and d.nodup_sortedNames).imp ?_
  rintro a b ⟨le, ne⟩
  simp only [nameLe, decide_eq_true_eq] at le
  by_contra not_less
  exact ne (String.le_antisymm le (String.not_lt.mp not_less))

/-! ## Numbers -/

/-- The name of a numbered component. -/
def nameOf (d : Design) (v : Nat) : String := d.sortedNames.getD v ""

/-- The number of a component. -/
def numberOf (d : Design) (name : String) : Nat := d.sortedNames.idxOf name

theorem nameOf_numberOf {name : String} (h : name ∈ d.names) :
    d.nameOf (d.numberOf name) = name := by
  have inside := List.idxOf_lt_length_iff.mpr (mem_sortedNames.mpr h)
  rw [nameOf, numberOf, List.getD_eq_getElem _ _ inside]
  exact List.getElem_idxOf inside

theorem numberOf_nameOf {v : Nat} (h : v < d.sortedNames.length) : d.numberOf (d.nameOf v) = v := by
  rw [nameOf, numberOf, List.getD_eq_getElem _ _ h]
  exact d.nodup_sortedNames.idxOf_getElem v h

theorem nameOf_mem {v : Nat} (h : v < d.sortedNames.length) : d.nameOf v ∈ d.names := by
  rw [nameOf, List.getD_eq_getElem _ _ h]
  exact mem_sortedNames.mp (List.getElem_mem h)

theorem numberOf_lt {name : String} (h : name ∈ d.names) :
    d.numberOf name < d.sortedNames.length :=
  List.idxOf_lt_length_iff.mpr (mem_sortedNames.mpr h)

theorem number?_eq {name : String} :
    number? d.sortedNames name = if name ∈ d.names then some (d.numberOf name) else none := by
  simp only [number?, List.contains_iff_mem, mem_sortedNames]
  rfl

theorem graph_size (d : Design) : d.graph.size = d.sortedNames.length := List.length_map _

theorem sortedNames_eq_map (d : Design) :
    d.sortedNames = (List.range d.graph.size).map d.nameOf := by
  rw [graph_size]
  refine List.ext_getElem (by simp) fun v h _ => ?_
  rw [List.getElem_map, List.getElem_range, nameOf, List.getD_eq_getElem _ _ h]

/-! ## Edges -/

theorem depsOf_graph {v : Nat} (h : v < d.sortedNames.length) {c : Component}
    (found : d.get? (d.nameOf v) = some c) :
    d.graph.depsOf v =
      (c.usedTypes.filterMap (number? d.sortedNames)).mergeSort (· ≤ ·) := by
  have inside : v < d.graph.deps.length := by
    rw [← graph_size] at h
    exact h
  rw [nameOf, List.getD_eq_getElem _ _ h] at found
  rw [Graph.depsOf, List.getD_eq_getElem _ _ inside]
  simp only [graph, List.getElem_map, found]

/-- An edge of the graph is an instance of a registered component. -/
theorem dependsOn_iff {v w : Nat} :
    d.graph.DependsOn v w ↔ v < d.sortedNames.length ∧ w < d.sortedNames.length ∧
      d.Instantiates (d.nameOf v) (d.nameOf w) := by
  by_cases inside : v < d.sortedNames.length
  · obtain ⟨c, hc, name⟩ := exists_of_mem_names (nameOf_mem inside)
    have found := get?_eq_some_iff.mpr ⟨hc, name⟩
    rw [Graph.DependsOn, depsOf_graph inside found, List.mem_mergeSort, List.mem_filterMap]
    simp only [number?_eq, Component.usedTypes, List.mem_eraseDups, List.mem_map]
    constructor
    · rintro ⟨type, ⟨i, hi, rfl⟩, number⟩
      split at number
      · next known =>
        cases number
        exact ⟨inside, numberOf_lt known, c, hc, name, i, hi, (nameOf_numberOf known).symm⟩
      · cases number
    · rintro ⟨-, less, c', hc', name', i, hi, type⟩
      obtain rfl := List.inj_on_of_nodup_map d.distinct hc' hc (name'.trans name.symm)
      refine ⟨i.type, ⟨i, hi, rfl⟩, ?_⟩
      rw [type, if_pos (nameOf_mem less), numberOf_nameOf less]
  · have none : d.graph.depsOf v = [] :=
      List.getD_eq_default _ _ (by rw [← graph_size] at inside; exact Nat.le_of_not_lt inside)
    simp [Graph.DependsOn, none, inside]

theorem graph_bounded (d : Design) : d.graph.Bounded := by
  intro v w dep
  rw [graph_size]
  exact (dependsOn_iff.mp dep).2.1

theorem dependsOn_numberOf {user type : String} (h : d.Instantiates user type)
    (known : type ∈ d.names) : d.graph.DependsOn (d.numberOf user) (d.numberOf type) := by
  refine dependsOn_iff.mpr ⟨numberOf_lt h.mem_names, numberOf_lt known, ?_⟩
  rwa [nameOf_numberOf h.mem_names, nameOf_numberOf known]

theorem dependsOn_of_mem_order {v : Nat} {type : String} (h : v ∈ d.graph.order)
    (uses : d.Instantiates (d.nameOf v) type) (known : type ∈ d.names) :
    d.graph.DependsOn v (d.numberOf type) := by
  have edge := dependsOn_numberOf uses known
  rwa [numberOf_nameOf (d.graph_size ▸ Graph.lt_size_of_mem_order h)] at edge

/-- A node lies on a cycle where its component instantiates itself, directly or not. -/
theorem cyclic_iff {name : String} (known : name ∈ d.names) :
    TransGen d.graph.DependsOn (d.numberOf name) (d.numberOf name) ↔
      TransGen d.Instantiates name name := by
  constructor
  · intro cycle
    have named : TransGen d.Instantiates (d.nameOf _) (d.nameOf _) :=
      cycle.lift d.nameOf fun v w dep => (dependsOn_iff.mp dep).2.2
    rwa [nameOf_numberOf known] at named
  · intro cycle
    have numbered : ∀ {a}, TransGen d.Instantiates a name →
        TransGen d.graph.DependsOn (d.numberOf a) (d.numberOf name) := by
      intro a way
      -- every component on the way instantiates the next one, so it is registered
      induction way using TransGen.head_induction_on with
      | single last => exact .single (dependsOn_numberOf last known)
      | head first more ih =>
        obtain ⟨b, next, -⟩ := TransGen.head'_iff.mp more
        exact .head (dependsOn_numberOf first next.mem_names) ih
    exact numbered cycle

theorem mem_depNames {name dep : String} :
    dep ∈ d.depNames name ↔ d.Instantiates name dep ∧ dep ∈ d.names := by
  have names : ∀ v, d.sortedNames.getD v "" = d.nameOf v := fun _ => rfl
  simp only [depNames, number?_eq, names]
  by_cases known : name ∈ d.names
  · simp only [known, if_true, List.mem_map]
    constructor
    · rintro ⟨w, edge, rfl⟩
      obtain ⟨-, less, uses⟩ := dependsOn_iff.mp edge
      rw [nameOf_numberOf known] at uses
      exact ⟨uses, nameOf_mem less⟩
    · rintro ⟨uses, known'⟩
      exact ⟨d.numberOf dep, dependsOn_numberOf uses known', nameOf_numberOf known'⟩
  · simp only [known, if_false, List.not_mem_nil, false_iff, not_and]
    exact fun uses _ => known uses.mem_names

/-- Names are numbered in their order. -/
theorem nameOf_lt {v w : Nat} (less : v < w) (inside : w < d.sortedNames.length) :
    d.nameOf v < d.nameOf w := by
  rw [nameOf, nameOf, List.getD_eq_getElem _ _ inside, List.getD_eq_getElem _ _ (less.trans inside)]
  exact List.pairwise_iff_getElem.mp d.sortedNames_sorted v w _ _ less

theorem nodup_eraseDups {α : Type} [BEq α] [LawfulBEq α] (as : List α) : as.eraseDups.Nodup := by
  induction size : as.length using Nat.strongRecOn generalizing as with
  | ind n ih =>
    cases as with
    | nil => exact .nil
    | cons a rest =>
      rw [List.eraseDups_cons, List.nodup_cons, List.mem_eraseDups, List.mem_filter]
      refine ⟨by simp, ih _ ?_ _ rfl⟩
      have := List.length_filter_le (fun b => !b == a) rest
      rw [← size, List.length_cons]
      omega

/-- The numbers that a node depends on come one behind the other. -/
theorem depsOf_sorted {v : Nat} (inside : v < d.sortedNames.length) :
    (d.graph.depsOf v).Pairwise (· < ·) := by
  obtain ⟨c, hc, name⟩ := exists_of_mem_names (nameOf_mem inside)
  rw [depsOf_graph inside (get?_eq_some_iff.mpr ⟨hc, name⟩)]
  have nodup : (c.usedTypes.filterMap (number? d.sortedNames)).Nodup := by
    refine (nodup_eraseDups _).filterMap ?_
    -- a number is the number of one name only
    intro a a' n ha ha'
    simp only [number?_eq, Option.mem_def, Option.ite_none_right_eq_some,
      Option.some.injEq] at ha ha'
    rw [← nameOf_numberOf ha.1, ha.2, ← ha'.2, nameOf_numberOf ha'.1]
  have sorted : ((c.usedTypes.filterMap (number? d.sortedNames)).mergeSort (· ≤ ·)).Pairwise
      fun a b => decide (a ≤ b) = true := by
    refine List.pairwise_mergeSort (fun a b c hab hbc => ?_) (fun a b => ?_) _
    · simp only [decide_eq_true_eq] at *
      omega
    · simp only [Bool.or_eq_true, decide_eq_true_eq]
      omega
  refine (sorted.and ((List.mergeSort_perm _ _).symm.nodup nodup)).imp ?_
  rintro a b ⟨le, ne⟩
  simp only [decide_eq_true_eq] at le
  omega

/-- The components that a component instantiates come one behind the other. -/
theorem depNames_sorted (d : Design) (name : String) : (d.depNames name).Pairwise (· < ·) := by
  simp only [depNames, number?_eq]
  by_cases known : name ∈ d.names
  · simp only [known, if_true]
    refine List.pairwise_map.mpr ((depsOf_sorted (numberOf_lt known)).imp_of_mem ?_)
    intro v w _ hw less
    exact nameOf_lt less (dependsOn_iff.mp hw).2.1
  · simp only [known, if_false]
    exact .nil

end CircuitCompiler.Design
