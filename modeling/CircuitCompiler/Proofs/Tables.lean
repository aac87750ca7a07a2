import CircuitCompiler.Facts.Tables
import CircuitCompiler.Proofs.Verdict

/-!
# How the tables of a design fit together

The rows on instances are made from the trees of the components and those on dependencies from the
graph of the design. Both are rows of the components that passed the check, and where no top-level
component is named these are closed under instantiation, so the tables refer to each other as the
tables of a database should.

* `Facts.Tables.Consistent`: what that means;
* `Facts.mem_dependencies_iff`, `Facts.mem_instances_iff`: where the rows come from;
* `Facts.extract_consistent`: the tables of a checked design are consistent.
-/

namespace CircuitCompiler.Facts

/-! ## Consistent tables -/

/-- The names of components that stand in rows of the other tables. -/
def Tables.mentioned (t : Tables) : List String :=
  t.generics.map (·.component) ++ t.ports.map (·.component) ++ t.signals.map (·.component) ++
    t.instances.flatMap (fun i => [i.component, i.target]) ++
    t.dependencies.flatMap fun r => [r.user, r.used]

/-- The order of dependency rows: by the component, then by what it instantiates. -/
def DependencyRow.Before (r s : DependencyRow) : Prop :=
  r.user < s.user ∨ r.user = s.user ∧ r.used < s.used

/-- The tables refer to each other as those of one design: components have distinct names and are
numbered in their order, the dependencies are those of the instances, each once and sorted, every
name of a component is that of a row, and what a component instantiates has a smaller number. -/
structure Tables.Consistent (t : Tables) : Prop where
  names : (t.components.map (·.name)).Nodup
  orders : t.components.map (·.order) = List.range t.components.length
  dependencies : ∀ r, r ∈ t.dependencies ↔
    ∃ i ∈ t.instances, i.component = r.user ∧ i.target = r.used
  once : t.dependencies.Nodup
  sorted : t.dependencies.Pairwise DependencyRow.Before
  known : ∀ name ∈ t.mentioned, ∃ c ∈ t.components, c.name = name
  ordered : ∀ r ∈ t.dependencies, ∀ user ∈ t.components, ∀ used ∈ t.components,
    user.name = r.user → used.name = r.used → used.order < user.order

/-! ## Sorting by pairs -/

theorem pairLe_iff {a b : String × String} :
    pairLe a b = true ↔ a.1 < b.1 ∨ a.1 = b.1 ∧ a.2 ≤ b.2 := by
  simp only [pairLe, nameLe]
  by_cases same : a.1 = b.1
  · simp only [same, beq_self_eq_true, if_true, decide_eq_true_eq, true_and]
    exact ⟨.inr, fun h => h.resolve_left (String.lt_irrefl b.1)⟩
  · rw [if_neg (by simpa using same), decide_eq_true_eq]
    constructor
    · intro le
      refine .inl (String.not_le.mp fun ge => same (String.le_antisymm le ge))
    · rintro (less | ⟨same', -⟩)
      · exact String.not_lt.mp fun more => String.lt_irrefl _ (String.lt_trans less more)
      · exact absurd same' same

theorem pairLe_total (a b : String × String) : (pairLe a b || pairLe b a) = true := by
  rw [Bool.or_eq_true, pairLe_iff, pairLe_iff]
  rcases lt_trichotomy a.1 b.1 with less | same | more
  · exact .inl (.inl less)
  · exact (String.le_total a.2 b.2).imp (fun le => .inr ⟨same, le⟩) fun le => .inr ⟨same.symm, le⟩
  · exact .inr (.inl more)

theorem pairLe_trans {a b c : String × String} (hab : pairLe a b = true)
    (hbc : pairLe b c = true) : pairLe a c = true := by
  rw [pairLe_iff] at hab hbc ⊢
  rcases hab with first | ⟨same, le⟩
  · rcases hbc with second | ⟨same', -⟩
    · exact .inl (String.lt_trans first second)
    · exact .inl (same' ▸ first)
  · rcases hbc with second | ⟨same', le'⟩
    · exact .inl (same ▸ second)
    · exact .inr ⟨same.trans same', String.le_trans le le'⟩

/-! ## Where the rows come from -/

section Rows

variable {d : Design} {top : String} (files : Option FileSet)

/-- The components in the order of a check. -/
def passed (v : Verdict) : List Component := v.order.filterMap v.design.get?

/-- The components in the order have the names in the order. -/
theorem map_passed (d : Design) (top : String) :
    (passed (d.check top)).map (·.name) = (d.check top).order := by
  have known : ∀ name ∈ (d.check top).order, name ∈ d.names := fun name mem =>
    (Design.mem_order_iff.mp mem).1
  have named : ∀ names : List String, (∀ name ∈ names, name ∈ d.names) →
      (names.filterMap d.get?).map (·.name) = names := by
    intro names known
    induction names with
    | nil => rfl
    | cons name rest ih =>
      obtain ⟨first, later⟩ := List.forall_mem_cons.mp known
      obtain ⟨c, hc, rfl⟩ := Design.exists_of_mem_names first
      rw [List.filterMap_cons_some (Design.get?_eq_some_iff.mpr ⟨hc, rfl⟩), List.map_cons,
        ih later]
  exact named _ known

theorem mem_passed {c : Component} :
    c ∈ passed (d.check top) ↔ c ∈ d.components ∧ c.name ∈ (d.check top).order := by
  rw [passed, List.mem_filterMap]
  constructor
  · rintro ⟨name, ordered, found⟩
    obtain ⟨hc, rfl⟩ := Design.get?_eq_some_iff.mp found
    exact ⟨hc, ordered⟩
  · rintro ⟨hc, ordered⟩
    exact ⟨c.name, ordered, Design.get?_eq_some_iff.mpr ⟨hc, rfl⟩⟩

theorem extract_names : (extract files (d.check top)).components.map (·.name) =
    (d.check top).order := by
  rw [← map_passed]
  exact List.ext_getElem (by simp [extract, passed]) fun n _ _ => by
    simp [extract, passed, componentRow]

/-- The row of a component has its place in the order. -/
theorem getElem?_order {c : ComponentRow} (h : c ∈ (extract files (d.check top)).components) :
    (d.check top).order[c.order]? = some c.name := by
  obtain ⟨n, inside, rfl⟩ := List.mem_mapIdx.mp h
  have found : (passed (d.check top))[n]? = some _ := List.getElem?_eq_getElem inside
  have names := congrArg (fun names => names[n]?) (map_passed d top)
  simp only [List.getElem?_map, found, Option.map_some] at names
  exact names.symm

/-- Rows that components make of their parts are about components that passed. -/
theorem mem_order_of_row {δ ρ : Type} {parts : Component → List δ} {row : Component → δ → ρ}
    {component : ρ → String} {le : ρ → ρ → Bool} {name : String}
    (h : name ∈ (((passed (d.check top)).flatMap fun c =>
      (parts c).map (row c)).mergeSort le).map component)
    (own : ∀ c part, component (row c part) = c.name) : name ∈ (d.check top).order := by
  obtain ⟨r, mem, rfl⟩ := List.mem_map.mp h
  rw [List.mem_mergeSort, List.mem_flatMap] at mem
  obtain ⟨c, hc, mem⟩ := mem
  obtain ⟨part, -, rfl⟩ := List.mem_map.mp mem
  rw [own c part]
  exact (mem_passed.mp hc).2

theorem mem_instances_iff {i : InstanceRow} : i ∈ (extract files (d.check top)).instances ↔
    ∃ c ∈ passed (d.check top), i ∈ instanceRows files c := by
  rw [extract, List.mem_mergeSort, List.mem_flatMap]
  rfl

/-- A component has a row for its instances of a type if it passed and has one. -/
theorem exists_instance_iff {user used : String} :
    (∃ i ∈ (extract files (d.check top)).instances, i.component = user ∧ i.target = used) ↔
      user ∈ (d.check top).order ∧ d.Instantiates user used := by
  constructor
  · rintro ⟨i, mem, rfl, rfl⟩
    obtain ⟨c, hc, row⟩ := (mem_instances_iff files).mp mem
    obtain ⟨inst, hinst, rfl⟩ := List.mem_map.mp row
    obtain ⟨known, ordered⟩ := mem_passed.mp hc
    exact ⟨ordered, c, known, rfl, inst, hinst, rfl⟩
  · rintro ⟨ordered, c, hc, rfl, inst, hinst, rfl⟩
    exact ⟨_, (mem_instances_iff files).mpr ⟨c, mem_passed.mpr ⟨hc, ordered⟩,
      List.mem_map_of_mem hinst⟩, rfl, rfl⟩

/-- A dependency is that of a component which passed on a registered one. -/
theorem mem_dependencies {r : DependencyRow} :
    r ∈ (extract files (d.check top)).dependencies ↔
      r.user ∈ (d.check top).order ∧ r.used ∈ d.depNames r.user := by
  rw [extract, List.mem_mergeSort, List.mem_flatMap]
  constructor
  · rintro ⟨name, ordered, row⟩
    obtain ⟨dep, hdep, rfl⟩ := List.mem_map.mp row
    exact ⟨ordered, hdep⟩
  · rintro ⟨ordered, hdep⟩
    exact ⟨r.user, ordered, List.mem_map_of_mem hdep⟩

/-- What a component that passed instantiates is registered. -/
theorem mem_dependencies_iff {r : DependencyRow} :
    r ∈ (extract files (d.check top)).dependencies ↔
      r.user ∈ (d.check top).order ∧ d.Instantiates r.user r.used := by
  rw [mem_dependencies, Design.mem_depNames]
  refine and_congr_right fun ordered => and_iff_left_of_imp fun uses => ?_
  by_contra unknown
  exact (Design.mem_order_iff.mp ordered).2.1 (.unknownType uses unknown)

theorem dependencies_nodup : (extract files (d.check top)).dependencies.Nodup := by
  refine (List.mergeSort_perm _ _).symm.nodup (List.nodup_flatMap.mpr ⟨fun name _ => ?_, ?_⟩)
  · have distinct : (d.depNames name).Nodup := (d.depNames_sorted name).imp ne_of_lt
    exact distinct.map fun a b same => congrArg DependencyRow.used same
  · refine (d.nodup_order top).imp fun {a b} other => ?_
    -- rows of different components differ in the first place
    rintro r ha hb
    obtain ⟨_, -, rfl⟩ := List.mem_map.mp ha
    obtain ⟨_, -, same⟩ := List.mem_map.mp hb
    exact other (congrArg DependencyRow.user same).symm

theorem dependencies_sorted :
    (extract files (d.check top)).dependencies.Pairwise DependencyRow.Before := by
  have sorted : (extract files (d.check top)).dependencies.Pairwise fun r s =>
      pairLe (r.user, r.used) (s.user, s.used) = true := by
    refine List.pairwise_mergeSort (fun r s t hrs hst => ?_) (fun r s => ?_) _
    · exact pairLe_trans hrs hst
    · exact pairLe_total _ _
  refine (sorted.and (dependencies_nodup files)).imp ?_
  rintro ⟨user, used⟩ ⟨user', used'⟩ ⟨le, ne⟩
  refine (pairLe_iff.mp le).imp_right ?_
  rintro ⟨rfl, le⟩
  exact ⟨rfl, lt_of_le_of_ne le fun (same : used = used') => ne (by rw [same])⟩

end Rows

/-! ## Consistency -/

/-- In an order that is closed under instantiation, a component stands behind what it
instantiates. -/
theorem place_lt {d : Design} {top user used : String} {m n : Nat} (calm : ¬d.Strands top)
    (uses : d.Instantiates user used) (here : (d.check top).order[n]? = some user)
    (there : (d.check top).order[m]? = some used) : m < n := by
  obtain ⟨inside, here⟩ := List.getElem?_eq_some_iff.mp here
  obtain ⟨inside', there⟩ := List.getElem?_eq_some_iff.mp there
  have split : (d.check top).order = (d.check top).order.take n ++ user ::
      (d.check top).order.drop (n + 1) := by
    rw [← here, List.getElem_cons_drop, List.take_append_drop]
  have early := Design.order_closed calm split uses
  obtain ⟨k, less, same⟩ := List.mem_iff_getElem.mp early
  rw [List.getElem_take, ← there] at same
  rw [List.length_take] at less
  have := (d.nodup_order top).getElem_inj_iff.mp same
  omega

theorem mem_order_of_instantiates {d : Design} {top user used : String} (calm : ¬d.Strands top)
    (ordered : user ∈ (d.check top).order) (uses : d.Instantiates user used) :
    used ∈ (d.check top).order := by
  obtain ⟨before, after, split⟩ := List.append_of_mem ordered
  have early := Design.order_closed calm split uses
  exact split ▸ List.mem_append_left _ early

/-- The tables of a design that is checked without a top-level component are consistent. They have
the components that pass, in order, and as dependencies what these instantiate. -/
theorem extract_consistent (d : Design) (files : Option FileSet) :
    (extract files (d.check "")).components.map (·.name) = (d.check "").order ∧
      (∀ r, r ∈ (extract files (d.check "")).dependencies ↔
        r.user ∈ (d.check "").order ∧ d.Instantiates r.user r.used) ∧
      (extract files (d.check "")).Consistent := by
  have calm : ¬d.Strands "" := fun strands => strands.1.1 rfl
  refine ⟨extract_names files, fun r => mem_dependencies_iff files, ?_⟩
  constructor
  case names =>
    rw [extract_names]
    exact d.nodup_order ""
  case orders => exact List.ext_getElem (by simp) fun n _ _ => by simp [extract, componentRow]
  case dependencies =>
    exact fun r => (mem_dependencies_iff files).trans (exists_instance_iff files).symm
  case once => exact dependencies_nodup files
  case sorted => exact dependencies_sorted files
  case ordered =>
    intro r hr user huser used hused name name'
    have uses := ((mem_dependencies_iff files).mp hr).2
    rw [← name, ← name'] at uses
    exact place_lt calm uses (getElem?_order files huser) (getElem?_order files hused)
  case known =>
    intro name mention
    rw [← List.mem_map, extract_names]
    -- the rows that components make of themselves, then those that name a second component
    simp only [Tables.mentioned, List.mem_append] at mention
    rcases mention with (((generic | port) | signal) | inst) | dep
    · exact mem_order_of_row generic fun _ _ => rfl
    · exact mem_order_of_row port fun _ _ => rfl
    · exact mem_order_of_row signal fun _ _ => rfl
    · obtain ⟨i, hi, mention⟩ := List.mem_flatMap.mp inst
      obtain ⟨ordered, uses⟩ := (exists_instance_iff files).mp ⟨i, hi, rfl, rfl⟩
      simp only [List.mem_cons, List.not_mem_nil, or_false] at mention
      rcases mention with rfl | rfl
      · exact ordered
      · exact mem_order_of_instantiates calm ordered uses
    · obtain ⟨r, hr, mention⟩ := List.mem_flatMap.mp dep
      obtain ⟨ordered, uses⟩ := (mem_dependencies_iff files).mp hr
      simp only [List.mem_cons, List.not_mem_nil, or_false] at mention
      rcases mention with rfl | rfl
      · exact ordered
      · exact mem_order_of_instantiates calm ordered uses

end CircuitCompiler.Facts
