import CircuitCompiler.Proofs.Graph
import Mathlib.Order.Bounds.Basic

/-!
# Layers and chains of dependencies

A node stands in the layer whose number is the length of the longest chain of dependencies that
starts at it: whatever it depends on stands in an earlier layer, and something it depends on stands
in the layer just before. Where chains are not bounded, they lead around, and the node has no layer.

* `Graph.HasChain`: the lengths of the chains from a node;
* `Graph.layers_earlier_at`, `Graph.layers_tight_at`: one step of a chain in the layers;
* `Graph.mem_layer_iff`: the layer of a node;
* `Graph.mem_order_iff`, `Graph.isCyclic_iff`: the nodes in the order, and whether there are others.
-/

namespace CircuitCompiler.Graph

open Relation

variable {g : Graph}

/-! ## Chains -/

/-- A chain of `k` dependencies starts at the node. -/
def HasChain (g : Graph) (v k : Nat) : Prop :=
  ∃ behind : List Nat, behind.length = k ∧ (v :: behind).IsChain g.DependsOn

theorem hasChain_zero (v : Nat) : g.HasChain v 0 := ⟨[], rfl, .singleton v⟩

theorem hasChain_succ_iff {v k : Nat} :
    g.HasChain v (k + 1) ↔ ∃ w, g.DependsOn v w ∧ g.HasChain w k := by
  constructor
  · rintro ⟨behind, length, chain⟩
    cases behind with
    | nil => cases length
    | cons w behind =>
      obtain ⟨dep, chain⟩ := List.isChain_cons_cons.mp chain
      exact ⟨w, dep, behind, Nat.succ.inj length, chain⟩
  · rintro ⟨w, dep, behind, rfl, chain⟩
    exact ⟨w :: behind, rfl, List.isChain_cons_cons.mpr ⟨dep, chain⟩⟩

/-- The number of dependencies in the longest chain that starts at the node. -/
def LongestChain (g : Graph) (v k : Nat) : Prop := IsGreatest {j | g.HasChain v j} k

/-- The node depends on a cycle, or is on one. -/
def ReachesCycle (g : Graph) (v : Nat) : Prop :=
  ∃ u, ReflTransGen g.DependsOn v u ∧ TransGen g.DependsOn u u

/-! ## Layers by number -/

/-- A node of a layer splits the layers there. -/
theorem layers_split {ls : List (List Nat)} {k v : Nat} (h : v ∈ ls.getD k []) :
    ∃ layer, v ∈ layer ∧ ls = ls.take k ++ layer :: ls.drop (k + 1) := by
  by_cases inside : k < ls.length
  · rw [List.getD_eq_getElem _ _ inside] at h
    refine ⟨ls[k], h, ?_⟩
    rw [← List.drop_eq_getElem_cons inside, List.take_append_drop]
  · rw [List.getD_eq_default _ _ (Nat.le_of_not_lt inside)] at h
    cases h

theorem mem_flatten_iff {ls : List (List Nat)} {v : Nat} :
    v ∈ ls.flatten ↔ ∃ k, v ∈ ls.getD k [] := by
  constructor
  · intro h
    obtain ⟨layer, hl, hv⟩ := List.mem_flatten.mp h
    obtain ⟨k, inside, rfl⟩ := List.mem_iff_getElem.mp hl
    exact ⟨k, by rwa [List.getD_eq_getElem _ _ inside]⟩
  · rintro ⟨k, h⟩
    obtain ⟨layer, hv, split⟩ := layers_split h
    rw [split]
    exact List.mem_flatten.mpr ⟨layer, by simp, hv⟩

/-- What a node of a layer depends on is in a layer before. -/
theorem layers_earlier_at {k v w : Nat} (h : v ∈ g.layers.getD k []) (dep : g.DependsOn v w) :
    ∃ j < k, w ∈ g.layers.getD j [] := by
  obtain ⟨layer, hv, split⟩ := layers_split h
  obtain ⟨j, hw⟩ := mem_flatten_iff.mp (layers_earlier split hv dep)
  have inside : j < (g.layers.take k).length := by
    by_contra outside
    rw [List.getD_eq_default _ _ (Nat.le_of_not_lt outside)] at hw
    cases hw
  rw [List.length_take, Nat.lt_min] at inside
  refine ⟨j, inside.1, ?_⟩
  rw [List.getD_eq_getElem?_getD] at hw ⊢
  rwa [List.getElem?_take_of_lt inside.1] at hw

/-- A node of the second of two layers was not ready for the first: it depends on a node there. -/
theorem layersFrom_tight (fuel : Nat) (done nodes : List Nat) {before after : List (List Nat)}
    {layer next : List Nat}
    (h : g.layersFrom fuel done nodes = before ++ layer :: next :: after) {v : Nat}
    (hv : v ∈ next) : ∃ w ∈ layer, g.DependsOn v w := by
  induction fuel generalizing done nodes before with
  | zero => simp [layersFrom] at h
  | succ fuel ih =>
    rw [layersFrom] at h
    split at h
    · simp at h
    · cases before with
      | cons first before =>
        simp only [List.cons_append, List.cons.injEq] at h
        exact ih _ _ h.2
      | nil =>
        simp only [List.nil_append, List.cons.injEq] at h
        obtain ⟨rfl, later⟩ := h
        -- the second layer is what becomes ready once the first is done
        cases fuel with
        | zero => simp [layersFrom] at later
        | succ fuel =>
          rw [layersFrom] at later
          split at later
          · cases later
          · simp only [List.cons.injEq] at later
            obtain ⟨rfl, -⟩ := later
            obtain ⟨left, ready⟩ := List.mem_filter.mp hv
            have unready : ¬g.isReady done v = true := by simpa using (List.mem_filter.mp left).2
            rw [isReady_iff] at ready unready
            push Not at unready
            obtain ⟨w, dep, missing⟩ := unready
            exact ⟨w, (List.mem_append.mp (ready w dep)).resolve_left missing, dep⟩

/-- A node of a layer behind another depends on a node of the layer just before. -/
theorem layers_tight_at {k v : Nat} (h : v ∈ g.layers.getD (k + 1) []) :
    ∃ w ∈ g.layers.getD k [], g.DependsOn v w := by
  obtain ⟨next, hv, split⟩ := layers_split h
  have inside : k < g.layers.length := by
    have := congrArg List.length split
    simp only [List.length_append, List.length_cons, List.length_take, List.length_drop] at this
    omega
  rw [List.take_succ_eq_append_getElem inside, List.append_assoc, List.singleton_append] at split
  rw [List.getD_eq_getElem _ _ inside]
  exact layersFrom_tight _ _ _ split hv

/-! ## The layer of a node -/

/-- A chain from a node of a layer is no longer than there are layers before. -/
theorem HasChain.le_layer {k v j : Nat} (h : v ∈ g.layers.getD k []) (chain : g.HasChain v j) :
    j ≤ k := by
  induction j generalizing k v with
  | zero => exact Nat.zero_le k
  | succ j ih =>
    obtain ⟨w, dep, chain⟩ := hasChain_succ_iff.mp chain
    obtain ⟨i, earlier, hw⟩ := layers_earlier_at h dep
    exact Nat.succ_le_of_lt (Nat.lt_of_le_of_lt (ih hw chain) earlier)

theorem hasChain_of_layer {k v : Nat} (h : v ∈ g.layers.getD k []) : g.HasChain v k := by
  induction k generalizing v with
  | zero => exact hasChain_zero v
  | succ k ih =>
    obtain ⟨w, hw, dep⟩ := layers_tight_at h
    exact hasChain_succ_iff.mpr ⟨w, dep, ih hw⟩

theorem longestChain_of_layer {k v : Nat} (h : v ∈ g.layers.getD k []) : g.LongestChain v k :=
  ⟨hasChain_of_layer h, fun _ chain => chain.le_layer h⟩

/-- From a node that is left over there are chains of every length. -/
theorem hasChain_of_blocked (bounded : g.Bounded) {v : Nat} (h : v ∈ g.blocked) (k : Nat) :
    g.HasChain v k := by
  induction k generalizing v with
  | zero => exact hasChain_zero v
  | succ k ih =>
    obtain ⟨w, hw, dep⟩ := blocked_dependsOn bounded h
    exact hasChain_succ_iff.mpr ⟨w, dep, ih hw⟩

/-- A node is in the layer whose number is the length of the longest chain from it. -/
theorem mem_layer_iff (bounded : g.Bounded) {k v : Nat} :
    v ∈ g.layers.getD k [] ↔ v < g.size ∧ g.LongestChain v k := by
  constructor
  · intro h
    exact ⟨lt_size_of_mem_order (mem_flatten_iff.mpr ⟨k, h⟩), longestChain_of_layer h⟩
  · rintro ⟨inside, longest⟩
    have ordered : v ∈ g.order := by
      by_contra out
      have longer := hasChain_of_blocked bounded (mem_blocked.mpr ⟨inside, out⟩) (k + 1)
      exact absurd (longest.2 longer) (Nat.not_succ_le_self k)
    obtain ⟨j, hj⟩ := mem_flatten_iff.mp ordered
    rwa [longest.unique (longestChain_of_layer hj)]

/-- The nodes of a layer are in increasing order. -/
theorem layersFrom_sorted (fuel : Nat) (done nodes : List Nat) (sorted : nodes.Pairwise (· < ·)) :
    ∀ layer ∈ g.layersFrom fuel done nodes, layer.Pairwise (· < ·) := by
  induction fuel generalizing done nodes with
  | zero => simp [layersFrom]
  | succ fuel ih =>
    rw [layersFrom]
    split
    · simp
    · exact List.forall_mem_cons.mpr ⟨sorted.filter _, ih _ _ (sorted.filter _)⟩

/-! ## The order -/

theorem mem_order_of_reaches {v u : Nat} (h : v ∈ g.order) (reaches : ReflTransGen g.DependsOn v u) :
    u ∈ g.order := by
  rcases reflTransGen_iff_eq_or_transGen.mp reaches with rfl | depends
  · exact h
  · obtain ⟨before, after, split⟩ := List.append_of_mem h
    rw [split]
    exact List.mem_append_left _ (order_earlier_trans split depends)

/-- A node is in the order if and only if it reaches no cycle. -/
theorem mem_order_iff (bounded : g.Bounded) {v : Nat} :
    v ∈ g.order ↔ v < g.size ∧ ¬g.ReachesCycle v := by
  constructor
  · intro h
    refine ⟨lt_size_of_mem_order h, ?_⟩
    rintro ⟨u, reaches, cycle⟩
    exact not_cyclic_of_mem_order (mem_order_of_reaches h reaches) cycle
  · rintro ⟨inside, clear⟩
    by_contra out
    exact clear (blocked_reaches_cycle bounded (mem_blocked.mpr ⟨inside, out⟩))

theorem isCyclic_iff_blocked (g : Graph) : g.isCyclic = true ↔ ∃ v, v ∈ g.blocked := by
  have count := g.order_append_blocked_perm.length_eq
  rw [List.length_append, List.length_range] at count
  rw [isCyclic, bne_iff_ne, ← List.length_pos_iff_exists_mem]
  omega

/-- Some node has no place in the order if and only if there is a cycle. -/
theorem isCyclic_iff (bounded : g.Bounded) :
    g.isCyclic = true ↔ ∃ v, TransGen g.DependsOn v v := by
  rw [isCyclic_iff_blocked]
  constructor
  · rintro ⟨v, h⟩
    obtain ⟨u, -, cycle⟩ := blocked_reaches_cycle bounded h
    exact ⟨u, cycle⟩
  · rintro ⟨v, cycle⟩
    -- the node comes last on its cycle, so another node depends on it
    obtain ⟨u, -, dep⟩ := TransGen.tail'_iff.mp cycle
    exact ⟨v, mem_blocked.mpr ⟨bounded u v dep, fun h => not_cyclic_of_mem_order h cycle⟩⟩

end CircuitCompiler.Graph
