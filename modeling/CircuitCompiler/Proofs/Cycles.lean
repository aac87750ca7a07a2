import CircuitCompiler.Proofs.Graph

/-!
# The cycles that are found

The search for a cycle through a node looks for a way back to it. Nodes that it has seen it never
looks at again, also where it had to turn back; so a way that is found has no node twice, and where
none is found `Graph.Searched` says that none was hidden behind a node that was passed over.

* `Graph.IsWay`: a way to the goal over nodes that are new;
* `Graph.wayTo_isWay`: what the search finds is one;
* `Graph.cycleThrough?_finds`: a cycle is found exactly where there is one, and what is found is one.
-/

namespace CircuitCompiler.Graph

open Relation

variable {g : Graph}

/-! ## Ways -/

/-- From one of the nodes `next` the nodes of `front` lead to the goal, from each to one that it
depends on. They were not seen before, and none of them comes twice. -/
structure IsWay (g : Graph) (goal : Nat) (seen next front : List Nat) : Prop where
  starts : ∃ d ∈ next, (front ++ [goal]).head? = some d
  steps : (front ++ [goal]).IsChain g.DependsOn
  distinct : front.Nodup
  fresh : ∀ u ∈ front, u ∉ seen ∧ u ≠ goal

theorem IsWay.here {goal : Nat} {seen rest : List Nat} : g.IsWay goal seen (goal :: rest) [] where
  starts := ⟨goal, List.mem_cons_self, rfl⟩
  steps := .singleton goal
  distinct := List.nodup_nil
  fresh := by simp

/-- A way is one also where there are more nodes to start from and fewer seen. -/
theorem IsWay.mono {goal : Nat} {seen seen' next next' front : List Nat}
    (way : g.IsWay goal seen' next' front) (fewer : seen ⊆ seen') (more : next' ⊆ next) :
    g.IsWay goal seen next front where
  starts := by
    obtain ⟨d, hd, head⟩ := way.starts
    exact ⟨d, more hd, head⟩
  steps := way.steps
  distinct := way.distinct
  fresh := fun u hu => ⟨fun old => (way.fresh u hu).1 (fewer old), (way.fresh u hu).2⟩

/-- A way from what a new node depends on starts one step earlier, at the node. -/
theorem IsWay.cons {goal d : Nat} {seen rest front : List Nat} (new : d ∉ seen) (other : d ≠ goal)
    (way : g.IsWay goal (d :: seen) (g.depsOf d) front) :
    g.IsWay goal seen (d :: rest) (d :: front) where
  starts := ⟨d, List.mem_cons_self, rfl⟩
  steps := by
    obtain ⟨e, dep, head⟩ := way.starts
    refine List.isChain_cons.mpr ⟨fun e' he' => ?_, way.steps⟩
    obtain rfl : e = e' := Option.some.inj (head.symm.trans he')
    exact dep
  distinct := List.nodup_cons.mpr ⟨fun again => (way.fresh d again).1 List.mem_cons_self,
    way.distinct⟩
  fresh := by
    rintro u (_ | ⟨_, hu⟩)
    · exact ⟨new, other⟩
    · exact ⟨fun old => (way.fresh u hu).1 (List.mem_cons_of_mem d old), (way.fresh u hu).2⟩

/-! ## The search -/

/-- What was seen stays seen. -/
theorem wayTo_keeps (goal fuel : Nat) (seen next : List Nat) :
    seen ⊆ (g.wayTo goal fuel seen next).1 := by
  fun_induction wayTo g goal fuel seen next with
  | case1 => exact List.Subset.refl _
  | case2 => exact List.Subset.refl _
  | case3 => exact List.Subset.refl _
  | case4 fuel seen d rest other old ih => exact ih
  | case5 fuel seen d rest other new seen' way found ih =>
    rw [found] at ih
    exact List.Subset.trans (List.subset_cons_self d seen) ih
  | case6 fuel seen d rest other new seen' found inner outer =>
    rw [found] at inner
    exact List.Subset.trans (List.Subset.trans (List.subset_cons_self d seen) inner) outer

/-- What the search finds is a way to the goal over nodes that were not seen before. -/
theorem wayTo_isWay {goal fuel : Nat} {seen next way : List Nat}
    (h : (g.wayTo goal fuel seen next).2 = some way) :
    ∃ front, way = front ++ [goal] ∧ g.IsWay goal seen next front := by
  fun_induction wayTo g goal fuel seen next generalizing way with
  | case1 => cases h
  | case2 => cases h
  | case3 fuel seen d rest there =>
    cases h
    obtain rfl : d = goal := eq_of_beq there
    exact ⟨[], rfl, .here⟩
  | case4 fuel seen d rest other old ih =>
    obtain ⟨front, split, way⟩ := ih h
    exact ⟨front, split, way.mono (List.Subset.refl _) (List.subset_cons_self d rest)⟩
  | case5 fuel seen d rest other new seen' way' found ih =>
    cases h
    obtain ⟨front, rfl, way⟩ := ih (congrArg Prod.snd found)
    exact ⟨d :: front, rfl, way.cons (by simpa using new) (by simpa using other)⟩
  | case6 fuel seen d rest other new seen' found inner outer =>
    -- the search turned back from `d`; what it saw on the way there is avoided from now on
    obtain ⟨front, split, way⟩ := outer h
    have kept := wayTo_keeps (g := g) goal fuel (d :: seen) (g.depsOf d)
    rw [found] at kept
    have kept := List.Subset.trans (List.subset_cons_self d seen) kept
    exact ⟨front, split, way.mono kept (List.subset_cons_self d rest)⟩

/-! ## Cycles -/

/-- The list leads around: it begins and ends with `v`, each of its nodes depends on the next, and
it comes by no node twice but for the return to `v`. -/
structure IsCycle (g : Graph) (v : Nat) (cycle : List Nat) : Prop where
  ends : ∃ inner, cycle = v :: (inner ++ [v]) ∧ (v :: inner).Nodup
  steps : cycle.IsChain g.DependsOn

/-- No cycle through a node is found if and only if the node is on none, and what is found is a cycle
through the node. -/
theorem cycleThrough?_finds (g : Graph) (v : Nat) :
    (g.cycleThrough? v = none ↔ ¬TransGen g.DependsOn v v) ∧
      ∀ cycle, g.cycleThrough? v = some cycle → g.IsCycle v cycle := by
  constructor
  · rw [← cycleThrough?_isSome_iff, ← Option.isSome_iff_ne_none.not_left]
  · intro cycle found
    rw [cycleThrough?, Option.map_eq_some_iff] at found
    obtain ⟨way, found, rfl⟩ := found
    obtain ⟨inner, rfl, way⟩ := wayTo_isWay found
    constructor
    case ends =>
      refine ⟨inner, rfl, List.nodup_cons.mpr ⟨fun again => (way.fresh v again).2 rfl, ?_⟩⟩
      exact way.distinct
    case steps =>
      obtain ⟨d, dep, head⟩ := way.starts
      refine List.isChain_cons.mpr ⟨fun e he => ?_, way.steps⟩
      obtain rfl : d = e := Option.some.inj (head.symm.trans he)
      exact dep

/-- Two nodes on a cycle, one of which is also on one of its own, and a node that depends on it. -/
example : (Graph.mk [[1], [0, 1], [1]]).cycleThrough? 0 = some [0, 1, 0] ∧
    (Graph.mk [[1], [0, 1], [1]]).cycleThrough? 1 = some [1, 0, 1] ∧
      (Graph.mk [[1], [0, 1], [1]]).cycleThrough? 2 = none := by decide

end CircuitCompiler.Graph
