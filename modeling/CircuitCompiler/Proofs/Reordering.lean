import CircuitCompiler.Facts.Tables
import CircuitCompiler.Proofs.Numbering

/-!
# The order of registration

A design keeps its components in the order in which they were registered. Whoever checks it sees two
things of it only: the names in their own order, and the component that a name leads to. Neither
depends on the order of registration, so nothing that the check finds does.

* `Design.Reordered`: two designs hold the same components;
* `Design.Reordered.findings`: what is wrong, in the order it is found;
* `Design.check_reordered`: all that a verdict says, and the tables that are extracted from it.
-/

namespace CircuitCompiler.Design

/-- The two designs hold the same components, registered in any order. -/
def Reordered (d d' : Design) : Prop := d.components.Perm d'.components

namespace Reordered

variable {d d' : Design}

/-! ## Names and components -/

theorem get? (h : d.Reordered d') : d.get? = d'.get? := by
  funext name
  cases found : d'.get? name with
  | none =>
    refine List.find?_eq_none.mpr fun c hc => ?_
    exact List.find?_eq_none.mp found c (h.mem_iff.mp hc)
  | some c =>
    obtain ⟨hc, named⟩ := get?_eq_some_iff.mp found
    exact get?_eq_some_iff.mpr ⟨h.mem_iff.mpr hc, named⟩

theorem has (h : d.Reordered d') : d.has = d'.has := by
  funext name
  rw [Bool.eq_iff_iff, has_iff, has_iff]
  exact (h.map (·.name)).mem_iff

/-- Sorting forgets the order of registration: both lists of names ascend and have the same names.
-/
theorem sortedNames (h : d.Reordered d') : d.sortedNames = d'.sortedNames := by
  have irrefl : Std.Irrefl (fun a b : String => a < b) := ⟨String.lt_irrefl⟩
  refine List.Pairwise.eq_of_mem_iff d.sortedNames_sorted d'.sortedNames_sorted fun name => ?_
  rw [mem_sortedNames, mem_sortedNames]
  exact (h.map (·.name)).mem_iff

/-! ## The graph -/

theorem graph (h : d.Reordered d') : d.graph = d'.graph := by
  unfold Design.graph
  rw [h.sortedNames, h.get?]

theorem depNames (h : d.Reordered d') : d.depNames = d'.depNames := by
  funext name
  unfold Design.depNames
  rw [h.sortedNames, h.graph]

/-! ## The single checks -/

theorem nameSpan (h : d.Reordered d') : d.nameSpan = d'.nameSpan := by
  funext name
  unfold Design.nameSpan
  rw [h.get?]

theorem collisions (h : d.Reordered d') (seen names : List String) :
    d.collisions seen names = d'.collisions seen names := by
  induction names generalizing seen with
  | nil => rfl
  | cons name rest ih =>
    unfold Design.collisions
    rw [h.nameSpan]
    split
    · rw [ih]
    · exact ih _

theorem insideTest (h : d.Reordered d') : d.insideTest = d'.insideTest := by
  have path : d.pathError? = d'.pathError? := by
    funext c p
    unfold pathError?
    rw [h.get?]
  have inside : d.componentError? = d'.componentError? := by
    funext c
    unfold componentError?
    rw [h.has, path]
  funext fs name
  unfold Design.insideTest
  rw [h.get?, inside]

theorem cycleTest (h : d.Reordered d') : d.cycleTest = d'.cycleTest := by
  funext fs name
  unfold Design.cycleTest
  rw [h.sortedNames, h.graph, h.nameSpan]

theorem dependencyTest (h : d.Reordered d') : d.dependencyTest = d'.dependencyTest := by
  have use : d.useSpan = d'.useSpan := by
    funext user type
    unfold useSpan
    rw [h.get?, h.nameSpan]
  funext fs name
  unfold Design.dependencyTest
  rw [h.depNames, use]

theorem spread (h : d.Reordered d') (names : List String) (rounds : Nat) (fs : Findings) :
    d.spread names rounds fs = d'.spread names rounds fs := by
  induction rounds generalizing fs with
  | zero => rfl
  | succ rounds ih =>
    unfold Design.spread
    rw [h.dependencyTest, ih]

/-- The same things are found in the same order, and each blames the same cause. -/
theorem findings (h : d.Reordered d') : d.findings = d'.findings := by
  unfold Design.findings
  simp only [h.sortedNames, h.collisions, h.insideTest, h.graph, h.cycleTest, h.spread]

theorem topVerdict (h : d.Reordered d') (top : String) (fs : Findings) :
    d.topVerdict top fs = d'.topVerdict top fs := by
  unfold Design.topVerdict
  rw [h.get?]

/-! ## Verdicts -/

theorem check (h : d.Reordered d') (top : String) :
    d.check top = { d'.check top with design := d } := by
  unfold Design.check
  simp only [h.findings, h.topVerdict]

/-- What is read off a verdict goes through the names in their order. -/
theorem sound (h : d.Reordered d') (top : String) : (d.check top).sound = (d'.check top).sound := by
  funext nodes
  rw [h.check]
  unfold Verdict.sound Verdict.names
  simp only [h.sortedNames]
  rfl

theorem order (h : d.Reordered d') (top : String) : (d.check top).order = (d'.check top).order := by
  unfold Verdict.order
  rw [h.sound]
  exact congrArg (fun g : Graph => (d'.check top).sound g.order) h.graph

theorem batches (h : d.Reordered d') (top : String) :
    (d.check top).batches = (d'.check top).batches := by
  unfold Verdict.batches
  rw [h.sound]
  exact congrArg
    (fun g : Graph => (g.layers.map (d'.check top).sound).filter fun names => !names.isEmpty)
    h.graph

theorem failed (h : d.Reordered d') (top : String) :
    (d.check top).failed = (d'.check top).failed := by
  rw [h.check]
  unfold Verdict.failed Verdict.names
  simp only [h.sortedNames]
  rfl

theorem extract (h : d.Reordered d') (files : Option FileSet) (top : String) :
    Facts.extract files (d.check top) = Facts.extract files (d'.check top) := by
  have get : (d.check top).design.get? = (d'.check top).design.get? := h.get?
  have deps : (d.check top).design.depNames = (d'.check top).design.depNames := h.depNames
  unfold Facts.extract
  rw [h.order, get, deps]

end Reordered

/-- The verdict on a design, what is reported and the tables that are extracted do not depend on the
order in which its components were registered. -/
theorem check_reordered {d d' : Design} (same : d.Reordered d') (top : String) :
    (d.check top).order = (d'.check top).order ∧
      (d.check top).batches = (d'.check top).batches ∧
      (d.check top).failed = (d'.check top).failed ∧
      (d.check top).topError = (d'.check top).topError ∧
      (d.check top).diagnostics = (d'.check top).diagnostics ∧
      ∀ files, Facts.extract files (d.check top) = Facts.extract files (d'.check top) := by
  have topError : (d.check top).topError = (d'.check top).topError := by
    rw [same.check]
  have diagnostics : (d.check top).diagnostics = (d'.check top).diagnostics := by
    rw [same.check]
    rfl
  exact ⟨same.order top, same.batches top, same.failed top, topError, diagnostics,
    fun files => same.extract files top⟩

/-- A component with an instance of each of some types. -/
def instancesOf (name : String) (types : List String) : Component where
  name := name
  nameSpan := .zero
  span := .zero
  file := 0
  items := [.arch ⟨.zero, "", .zero,
    types.map fun type => .inst .zero ⟨"i" ++ type, .zero, type, .zero, []⟩⟩]
  widths := []

/-- A component that instantiates two broken ones: one has an instance of itself, the other of a
component that does not exist. -/
def twoCauses : Design where
  components := [instancesOf "U" ["L", "M"], instancesOf "L" ["L"], instancesOf "M" ["N"]]
  distinct := by decide

/-- The same components the other way round. -/
def twoCausesReversed : Design where
  components := [instancesOf "M" ["N"], instancesOf "L" ["L"], instancesOf "U" ["L", "M"]]
  distinct := by decide

theorem check_reordered_twoCauses :
    twoCauses.components ≠ twoCausesReversed.components ∧
      (twoCauses.check "").diagnostics = (twoCausesReversed.check "").diagnostics := by
  have same : twoCauses.Reordered twoCausesReversed :=
    (List.reverse_perm twoCauses.components).symm
  exact ⟨by decide, (check_reordered same "").2.2.2.2.1⟩

end CircuitCompiler.Design
