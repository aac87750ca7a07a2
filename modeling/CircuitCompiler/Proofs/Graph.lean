import CircuitCompiler.Design.Graph
import Mathlib.Algebra.Order.BigOperators.Group.Finset
import Mathlib.Data.Fintype.Pigeonhole
import Mathlib.Data.List.GetD
import Mathlib.Logic.Relation

/-!
# Orders and cycles

What the layers of a graph and the search for cycles are worth.

* `Graph.order_earlier`, `Graph.layers_earlier`: whatever a node in the order depends on comes
  before it;
* `Graph.not_cyclic_of_mem_order`: a node in the order is on no cycle;
* `Graph.blocked_reaches_cycle`: a node that is left over depends on a cycle;
* `Graph.cycleThrough?_isSome_iff`: the search finds a cycle exactly where there is one.
-/

namespace CircuitCompiler.Graph

open Relation

variable (g : Graph)

/-- A node depends on another directly. -/
def DependsOn (v w : Nat) : Prop := w ∈ g.depsOf v

/-- All dependencies are nodes. -/
def Bounded : Prop := ∀ v w, g.DependsOn v w → w < g.size

variable {g}

theorem isReady_iff {done : List Nat} {v : Nat} :
    g.isReady done v = true ↔ ∀ w, g.DependsOn v w → w ∈ done := by
  simp [isReady, DependsOn]

/-! ## Layers -/

/-- The layers take nodes until none of those left is ready. -/
theorem layersFrom_perm (fuel : Nat) (done nodes : List Nat) (enough : nodes.length ≤ fuel) :
    ∃ left, nodes.Perm ((g.layersFrom fuel done nodes).flatten ++ left) ∧
      ∀ v ∈ left, ¬g.isReady (done ++ (g.layersFrom fuel done nodes).flatten) v = true := by
  induction fuel generalizing done nodes with
  | zero =>
    obtain rfl : nodes = [] := List.eq_nil_of_length_eq_zero (Nat.le_zero.mp enough)
    exact ⟨[], List.Perm.refl _, by simp⟩
  | succ fuel ih =>
    rw [layersFrom]
    -- either nothing is ready and all nodes are left, or there are fewer nodes to go on with
    by_cases stuck : (nodes.filter (g.isReady done)).isEmpty = true
    · simp only [stuck, if_true]
      refine ⟨nodes, List.Perm.refl _, fun v hv ready => ?_⟩
      rw [List.flatten_nil, List.append_nil] at ready
      have : v ∈ nodes.filter (g.isReady done) := List.mem_filter.mpr ⟨hv, ready⟩
      rw [List.isEmpty_iff.mp stuck] at this
      cases this
    · simp only [stuck, Bool.false_eq_true, if_false]
      have split := List.filter_append_perm (g.isReady done) nodes
      have size := split.length_eq
      have some : 0 < (nodes.filter (g.isReady done)).length :=
        List.length_pos_of_ne_nil (by simpa using stuck)
      rw [List.length_append] at size
      obtain ⟨left, perm, blocked⟩ := ih (done ++ nodes.filter (g.isReady done))
        (nodes.filter fun v => !g.isReady done v) (by omega)
      refine ⟨left, ?_, ?_⟩
      · rw [List.flatten_cons, List.append_assoc]
        exact split.symm.trans (perm.append_left _)
      · rw [List.flatten_cons, ← List.append_assoc]
        exact blocked

/-- What a node of a layer depends on is done or in an earlier layer. -/
theorem layersFrom_earlier (fuel : Nat) (done nodes : List Nat) {before after : List (List Nat)}
    {layer : List Nat} (h : g.layersFrom fuel done nodes = before ++ layer :: after) {v w : Nat}
    (hv : v ∈ layer) (hw : g.DependsOn v w) : w ∈ done ++ before.flatten := by
  induction fuel generalizing done nodes before with
  | zero => simp [layersFrom] at h
  | succ fuel ih =>
    rw [layersFrom] at h
    split at h
    · simp at h
    · cases before with
      | nil =>
        simp only [List.nil_append, List.cons.injEq] at h
        obtain ⟨rfl, -⟩ := h
        have ready := isReady_iff.mp (List.mem_filter.mp hv).2 w hw
        simpa using ready
      | cons first before =>
        simp only [List.cons_append, List.cons.injEq] at h
        obtain ⟨rfl, more⟩ := h
        rw [List.flatten_cons, ← List.append_assoc]
        exact ih _ _ more

/-- What a node of a layer depends on is in an earlier layer. -/
theorem layers_earlier {before after : List (List Nat)} {layer : List Nat}
    (h : g.layers = before ++ layer :: after) {v w : Nat} (hv : v ∈ layer)
    (hw : g.DependsOn v w) : w ∈ before.flatten := by
  simpa using layersFrom_earlier _ _ _ h hv hw

/-- Where a node stands in joined lists. -/
theorem flatten_eq_append_cons {α : Type} {ls : List (List α)} {before after : List α} {a : α}
    (h : ls.flatten = before ++ a :: after) :
    ∃ earlier l later front, ls = earlier ++ l :: later ∧ a ∈ l ∧
      before = earlier.flatten ++ front := by
  induction ls generalizing before with
  | nil => simp at h
  | cons l ls ih =>
    rw [List.flatten_cons] at h
    rcases List.append_eq_append_iff.mp h with ⟨front, rfl, rest⟩ | ⟨back, same, rest⟩
    · obtain ⟨earlier, l', later, front', rfl, mem, rfl⟩ := ih rest
      exact ⟨l :: earlier, l', later, front', rfl, mem, by simp⟩
    · cases back with
      | nil =>
        rw [List.append_nil] at same
        have rest : ls.flatten = [] ++ a :: after := rest.symm
        obtain ⟨earlier, l', later, front', rfl, mem, nil⟩ := ih rest
        exact ⟨l :: earlier, l', later, front', rfl, mem, by simp [same, ← nil]⟩
      | cons b back =>
        simp only [List.cons_append, List.cons.injEq] at rest
        obtain ⟨rfl, -⟩ := rest
        exact ⟨[], l, ls, before, rfl, by simp [same], by simp⟩

/-- What a node in the order depends on comes before it. -/
theorem order_earlier {before after : List Nat} {v w : Nat} (h : g.order = before ++ v :: after)
    (hw : g.DependsOn v w) : w ∈ before := by
  obtain ⟨earlier, layer, later, front, layers, hv, rfl⟩ := flatten_eq_append_cons h
  exact List.mem_append_left _ (layers_earlier layers hv hw)

theorem order_perm (g : Graph) :
    ∃ left, (List.range g.size).Perm (g.order ++ left) ∧
      ∀ v ∈ left, ¬g.isReady g.order v = true := by
  obtain ⟨left, perm, blocked⟩ := layersFrom_perm (g := g) g.size [] (List.range g.size) (by simp)
  exact ⟨left, perm, blocked⟩

theorem nodup_order (g : Graph) : g.order.Nodup := by
  obtain ⟨left, perm, -⟩ := g.order_perm
  exact (List.nodup_append.mp (perm.nodup List.nodup_range)).1

theorem lt_size_of_mem_order {v : Nat} (h : v ∈ g.order) : v < g.size := by
  obtain ⟨left, perm, -⟩ := g.order_perm
  exact List.mem_range.mp (perm.mem_iff.mpr (List.mem_append_left left h))

theorem mem_blocked {v : Nat} : v ∈ g.blocked ↔ v < g.size ∧ v ∉ g.order := by
  simp [blocked]

/-- Every node is in the order or left over, once. -/
theorem order_append_blocked_perm (g : Graph) :
    (g.order ++ g.blocked).Perm (List.range g.size) := by
  refine (List.perm_ext_iff_of_nodup ?_ List.nodup_range).mpr fun v => ?_
  · refine List.nodup_append.mpr ⟨g.nodup_order, List.nodup_range.filter _, ?_⟩
    rintro v ordered _ blocked rfl
    exact (mem_blocked.mp blocked).2 ordered
  · have inside : v ∈ g.order → v < g.size := lt_size_of_mem_order
    rw [List.mem_append, mem_blocked, List.mem_range]
    tauto

/-- A node that is left over depends on another one that is left over. -/
theorem blocked_dependsOn (bounded : g.Bounded) {v : Nat} (h : v ∈ g.blocked) :
    ∃ w ∈ g.blocked, g.DependsOn v w := by
  obtain ⟨left, perm, blocked⟩ := g.order_perm
  obtain ⟨inside, out⟩ := mem_blocked.mp h
  have mem : v ∈ left :=
    (List.mem_append.mp (perm.mem_iff.mp (List.mem_range.mpr inside))).resolve_left out
  have unready := blocked v mem
  rw [isReady_iff] at unready
  push Not at unready
  obtain ⟨w, dep, missing⟩ := unready
  exact ⟨w, mem_blocked.mpr ⟨bounded v w dep, missing⟩, dep⟩

/-! ## Cycles and the order -/

/-- What a node in the order depends on, directly or not, comes before it. -/
theorem order_earlier_trans {before after : List Nat} {v w : Nat}
    (h : g.order = before ++ v :: after) (hw : TransGen g.DependsOn v w) : w ∈ before := by
  induction hw with
  | single dep => exact order_earlier h dep
  | tail _ dep ih =>
    obtain ⟨front, back, rfl⟩ := List.append_of_mem ih
    rw [List.append_assoc] at h
    exact List.mem_append_left _ (order_earlier h dep)

theorem not_cyclic_of_mem_order {v : Nat} (h : v ∈ g.order) : ¬TransGen g.DependsOn v v := by
  intro cycle
  obtain ⟨before, after, split⟩ := List.append_of_mem h
  have early := order_earlier_trans split cycle
  have nodup := g.nodup_order
  rw [split] at nodup
  exact (List.nodup_append.mp nodup).2.2 v early v List.mem_cons_self rfl

/-- A node that is left over depends on a cycle: following dependencies that are left over, one of
the finitely many nodes comes again. -/
theorem blocked_reaches_cycle (bounded : g.Bounded) {v : Nat} (h : v ∈ g.blocked) :
    ∃ u, ReflTransGen g.DependsOn v u ∧ TransGen g.DependsOn u u := by
  choose next left dep using fun w (hw : w ∈ g.blocked) => blocked_dependsOn bounded hw
  let step : {w // w ∈ g.blocked} → {w // w ∈ g.blocked} := fun w => ⟨next w.1 w.2, left w.1 w.2⟩
  let walk : Nat → {w // w ∈ g.blocked} := fun n => step^[n] ⟨v, h⟩
  have moves : ∀ n, g.DependsOn (walk n).1 (walk (n + 1)).1 := by
    intro n
    simp only [walk, Function.iterate_succ_apply']
    exact dep _ _
  have reaches : ∀ n k, ReflTransGen g.DependsOn (walk n).1 (walk (n + k)).1 := by
    intro n k
    induction k with
    | zero => exact .refl
    | succ k ih => exact ih.tail (moves (n + k))
  -- the walk is at some node twice, and from there it leads around
  obtain ⟨i, j, different, same⟩ := Finite.exists_ne_map_eq_of_infinite walk
  have cycle : ∀ i j, i < j → walk i = walk j →
      ∃ u, ReflTransGen g.DependsOn v u ∧ TransGen g.DependsOn u u := by
    intro i j less same
    obtain ⟨k, rfl⟩ := Nat.exists_eq_add_of_lt less
    have there := reaches 0 i
    rw [Nat.zero_add] at there
    have back := TransGen.tail' (reaches i k) (moves (i + k))
    rw [← same] at back
    exact ⟨(walk i).1, there, back⟩
  rcases Nat.lt_or_gt_of_ne different with less | less
  · exact cycle i j less same
  · exact cycle j i less same.symm

/-! ## Finding cycles -/

/-- A way that is found leads to the goal. -/
theorem wayTo_some {goal fuel : Nat} {seen next : List Nat} {way : List Nat}
    (h : (g.wayTo goal fuel seen next).2 = some way) :
    ∃ d ∈ next, ReflTransGen g.DependsOn d goal := by
  induction fuel generalizing seen next way with
  | zero =>
    cases next with
    | nil => simp [wayTo] at h
    | cons d rest => simp [wayTo] at h
  | succ fuel ih =>
    cases next with
    | nil => simp [wayTo] at h
    | cons d rest =>
      have later : ∀ {seen way}, (g.wayTo goal fuel seen rest).2 = some way →
          ∃ e ∈ d :: rest, ReflTransGen g.DependsOn e goal := fun found => by
        obtain ⟨e, he, reaches⟩ := ih found
        exact ⟨e, List.mem_cons_of_mem d he, reaches⟩
      rw [wayTo] at h
      split at h
      · next there => exact ⟨d, List.mem_cons_self, eq_of_beq there ▸ .refl⟩
      · split at h
        · exact later h
        · split at h
          · next seen' way' found =>
            obtain ⟨e, he, reaches⟩ := ih (congrArg Prod.snd found)
            exact ⟨d, List.mem_cons_self, reaches.head he⟩
          · exact later h

/-- How many dependencies are still to be looked at, at most. -/
def unseen (g : Graph) (goal : Nat) (seen : List Nat) : Nat :=
  ∑ u ∈ (Finset.range g.size).filter (fun u => u ∉ seen ∧ u ≠ goal), (g.depsOf u).length

theorem unseen_cons {goal d : Nat} {seen : List Nat} (new : d ∉ seen) (other : d ≠ goal) :
    (g.depsOf d).length + g.unseen goal (d :: seen) = g.unseen goal seen := by
  have erase : (Finset.range g.size).filter (fun u => u ∉ d :: seen ∧ u ≠ goal) =
      ((Finset.range g.size).filter (fun u => u ∉ seen ∧ u ≠ goal)).erase d := by
    ext u
    simp only [Finset.mem_filter, Finset.mem_erase, List.mem_cons, not_or]
    tauto
  rw [unseen, erase]
  by_cases inside : d < g.size
  · have mem : d ∈ (Finset.range g.size).filter (fun u => u ∉ seen ∧ u ≠ goal) := by
      simp [inside, new, other]
    exact Finset.add_sum_erase _ (fun u => (g.depsOf u).length) mem
  · have none : g.depsOf d = [] := List.getD_eq_default _ _ (Nat.le_of_not_lt inside)
    rw [none, Finset.erase_eq_of_notMem (by simp [inside])]
    simp [unseen]

theorem unseen_mono (goal : Nat) {seen seen' : List Nat} (h : ∀ u ∈ seen, u ∈ seen') :
    g.unseen goal seen' ≤ g.unseen goal seen := by
  refine Finset.sum_le_sum_of_subset fun u hu => ?_
  simp only [Finset.mem_filter] at hu ⊢
  exact ⟨hu.1, fun old => hu.2.1 (h u old), hu.2.2⟩

/-- What a search leaves behind that does not find the goal: it has seen what it was to look at, and
whatever the newly seen nodes depend on. -/
structure Searched (g : Graph) (goal : Nat) (seen next seen' : List Nat) : Prop where
  keeps : ∀ u ∈ seen, u ∈ seen'
  sees : ∀ d ∈ next, d ∈ seen'
  avoids : ∀ u ∈ seen', u ∉ seen → u ≠ goal
  closed : ∀ u ∈ seen', u ∉ seen → ∀ w, g.DependsOn u w → w ∈ seen'

theorem Searched.nothing (goal : Nat) (seen : List Nat) : g.Searched goal seen [] seen :=
  ⟨fun _ hu => hu, by simp, fun _ hu new => absurd hu new, fun _ hu new => absurd hu new⟩

/-- A node that was seen before is passed over. -/
theorem Searched.skip {goal d : Nat} {seen rest seen' : List Nat} (old : d ∈ seen)
    (h : g.Searched goal seen rest seen') : g.Searched goal seen (d :: rest) seen' := by
  refine ⟨h.keeps, fun e he => ?_, h.avoids, h.closed⟩
  rcases List.mem_cons.mp he with rfl | he
  · exact h.keeps e old
  · exact h.sees e he

/-- A new node is seen with what it depends on, and then the rest. -/
theorem Searched.step {goal d : Nat} {seen seen₁ rest seen' : List Nat} (other : d ≠ goal)
    (inner : g.Searched goal (d :: seen) (g.depsOf d) seen₁)
    (outer : g.Searched goal seen₁ rest seen') : g.Searched goal seen (d :: rest) seen' := by
  have newly : ∀ u ∈ seen₁, u ∉ seen → u ≠ goal ∧ ∀ w, g.DependsOn u w → w ∈ seen₁ := by
    intro u hu fresh
    by_cases itself : u = d
    · subst itself
      exact ⟨other, inner.sees⟩
    · have fresh : u ∉ d :: seen := by simp [itself, fresh]
      exact ⟨inner.avoids u hu fresh, inner.closed u hu fresh⟩
  refine ⟨?_, ?_, ?_, ?_⟩
  · intro u hu
    exact outer.keeps u (inner.keeps u (List.mem_cons_of_mem d hu))
  · intro e he
    rcases List.mem_cons.mp he with rfl | he
    · exact outer.keeps e (inner.keeps e List.mem_cons_self)
    · exact outer.sees e he
  · intro u hu fresh
    by_cases early : u ∈ seen₁
    · exact (newly u early fresh).1
    · exact outer.avoids u hu early
  · intro u hu fresh w dep
    by_cases early : u ∈ seen₁
    · exact outer.keeps w ((newly u early fresh).2 w dep)
    · exact outer.closed u hu early w dep

theorem wayTo_none {goal fuel : Nat} {seen next seen' : List Nat}
    (h : g.wayTo goal fuel seen next = (seen', none))
    (enough : next.length + g.unseen goal seen ≤ fuel) : g.Searched goal seen next seen' := by
  induction fuel generalizing seen next seen' with
  | zero =>
    obtain rfl : next = [] := List.eq_nil_of_length_eq_zero (by omega)
    simp only [wayTo] at h
    cases h
    exact .nothing goal seen
  | succ fuel ih =>
    cases next with
    | nil =>
      simp only [wayTo] at h
      cases h
      exact .nothing goal seen
    | cons d rest =>
      rw [List.length_cons] at enough
      rw [wayTo] at h
      split at h
      · cases h
      · next other =>
        have other : d ≠ goal := fun same => other (by simp [same])
        split at h
        · next old => exact .skip (by simpa using old) (ih h (by omega))
        · next new =>
          have weight := unseen_cons (g := g) (by simpa using new) other
          split at h
          · cases h
          · next seen₁ found =>
            -- the fuel pays for each dependency once: those of `d` are no longer among the unseen
            have inner := ih found (by omega)
            have fewer := unseen_mono (g := g) goal fun u hu =>
              inner.keeps u (List.mem_cons_of_mem d hu)
            exact .step other inner (ih h (by omega))

theorem edgeCount_eq (g : Graph) :
    g.edgeCount = ∑ u ∈ Finset.range g.size, (g.depsOf u).length := by
  obtain ⟨deps⟩ := g
  simp only [edgeCount, size, depsOf]
  induction deps with
  | nil => rfl
  | cons first rest ih =>
    rw [List.length_cons, Finset.sum_range_succ']
    simp only [List.map_cons, List.foldr_cons, ih, List.getD_cons_succ, List.getD_cons_zero]
    exact Nat.add_comm _ _

/-- The search has enough fuel: the node itself is never looked into again. -/
theorem unseen_le (v : Nat) : (g.depsOf v).length + g.unseen v [] ≤ g.edgeCount := by
  rw [edgeCount_eq, unseen]
  by_cases inside : v < g.size
  · rw [← Finset.add_sum_erase _ _ (Finset.mem_range.mpr inside)]
    refine Nat.add_le_add_left (Finset.sum_le_sum_of_subset fun u hu => ?_) _
    simp only [Finset.mem_filter, Finset.mem_erase] at hu ⊢
    exact ⟨hu.2.2, hu.1⟩
  · have none : g.depsOf v = [] := List.getD_eq_default _ _ (Nat.le_of_not_lt inside)
    rw [none, List.length_nil, Nat.zero_add]
    exact Finset.sum_le_sum_of_subset (Finset.filter_subset _ _)

/-- A cycle is found through a node exactly where there is one. -/
theorem cycleThrough?_isSome_iff (v : Nat) :
    (g.cycleThrough? v).isSome = true ↔ TransGen g.DependsOn v v := by
  rw [cycleThrough?, Option.isSome_map]
  constructor
  · intro found
    obtain ⟨way, found⟩ := Option.isSome_iff_exists.mp found
    obtain ⟨d, dep, reaches⟩ := wayTo_some found
    exact TransGen.head' dep reaches
  · intro cycle
    by_contra missing
    rcases found : g.wayTo v (g.edgeCount + g.size + 1) [] (g.depsOf v) with ⟨seen, way?⟩
    rw [found] at missing
    obtain rfl : way? = none := by simpa using missing
    have least := unseen_le (g := g) v
    have searched := wayTo_none found (by omega)
    -- the search saw all that the node leads to, and it would not have passed by the node itself
    have reached : ∀ w, TransGen g.DependsOn v w → w ∈ seen := by
      intro w hw
      induction hw with
      | single dep => exact searched.sees _ dep
      | tail _ dep ih => exact searched.closed _ ih (by simp) _ dep
    exact searched.avoids v (reached v cycle) (by simp) rfl

end CircuitCompiler.Graph
