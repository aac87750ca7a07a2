import CircuitCompiler.Proofs.Findings
import Mathlib

/-!
# What the check decides

A component is in the order of a verdict or failed, and it fails where it is broken. The order is
closed under instantiation, with one exception: a top-level component that declares generics fails
after the failures have been spread, so its users stay.

* `Design.check_exact`: the verdict where no top-level component is named;
* `Design.check_dependencyClosed_iff`: the order and the batches are closed under instantiation
  unless the top-level component strands a user.
-/

namespace CircuitCompiler

open Relation

namespace Design

variable {d : Design}

/-! ## The top-level component -/

/-- The top-level component is rejected for its generics, not for anything else. -/
def RejectsTop (d : Design) (top : String) : Prop :=
  top ≠ "" ∧ ¬d.Broken top ∧ ∃ c ∈ d.components, c.name = top ∧ c.generics ≠ []

theorem topFinding_named {top : String} {fs : Findings} {f : Finding}
    (found : (d.topVerdict top fs).2 = some f) : f.component = top := by
  unfold topVerdict at found
  split at found
  · cases found
  · split at found
    · cases found
    · split at found
      · cases found
      · split at found
        · cases found
        · cases found
          rfl

theorem topFinding_isSome_iff {top : String} :
    (d.topVerdict top d.findings).2.isSome = true ↔ d.RejectsTop top := by
  unfold topVerdict
  split
  · next empty => simp [RejectsTop, eq_of_beq empty]
  · next named =>
    have named : top ≠ "" := fun empty => named (by simp [empty])
    split
    · next missing =>
      simp only [Option.isSome_none, Bool.false_eq_true, false_iff]
      rintro ⟨-, -, c, hc, name, -⟩
      rw [get?_eq_some_iff.mpr ⟨hc, name⟩] at missing
      cases missing
    · next c found =>
      obtain ⟨hc, name⟩ := get?_eq_some_iff.mp found
      have rejects : d.RejectsTop top ↔ ¬d.Broken top ∧ c.generics ≠ [] := by
        constructor
        · rintro ⟨-, sound, c', hc', name', generics⟩
          rw [List.inj_on_of_nodup_map d.distinct hc' hc (name'.trans name.symm)] at generics
          exact ⟨sound, generics⟩
        · rintro ⟨sound, generics⟩
          exact ⟨named, sound, c, hc, name, generics⟩
      rw [rejects, ← findings_has_iff]
      split
      · next none => simp [none]
      · next g rest some =>
        split
        · next broken => simp [broken]
        · next sound => simp [sound, some]

theorem check_findings (d : Design) (top : String) :
    (d.check top).findings = d.findings ++ (d.topVerdict top d.findings).2.toList := rfl

/-- A component fails where it is broken or rejected as the top-level one. -/
theorem check_has_iff {top name : String} :
    (d.check top).findings.has name = true ↔ d.Broken name ∨ name = top ∧ d.RejectsTop top := by
  rw [← findings_has_iff, ← topFinding_isSome_iff, check_findings]
  simp only [Findings.has_iff, List.map_append, List.mem_append]
  refine or_congr_right ?_
  cases found : (d.topVerdict top d.findings).2 with
  | none => simp
  | some f => simp [topFinding_named found]

theorem check_without_top (d : Design) : d.check "" = ⟨d, d.findings, none⟩ := by
  simp [check, topVerdict]

/-! ## Ordered and failed components -/

/-- A component without a place in the order of the graph is broken: it leads to a cycle, and
everything on the way there instantiates a broken component. -/
theorem broken_of_blocked {v : Nat} (h : v ∈ d.graph.blocked) : d.Broken (d.nameOf v) := by
  obtain ⟨u, way, cycle⟩ := Graph.blocked_reaches_cycle d.graph_bounded h
  have instances : ∀ a b, d.graph.DependsOn a b → d.Instantiates (d.nameOf a) (d.nameOf b) :=
    fun a b edge => (dependsOn_iff.mp edge).2.2
  clear h
  -- from the cycle backwards: each node on the way has an instance of the next
  induction way using ReflTransGen.head_induction_on with
  | refl => exact .cyclic (cycle.lift d.nameOf instances)
  | head edge _ ih => exact .uses (instances _ _ edge) ih

end Design

namespace Verdict

theorem order_eq (v : Verdict) :
    v.order = (v.design.graph.order.map v.design.nameOf).filter fun name =>
      !v.findings.has name := rfl

/-- The failed components are those with a finding, by name. -/
theorem failed_names (v : Verdict) :
    v.failed.map (·.1) = v.design.sortedNames.filter v.findings.has := by
  rw [failed, List.map_filterMap, ← List.filterMap_eq_filter]
  refine List.filterMap_congr fun name _ => ?_
  rw [Option.guard_apply, ← Findings.on?_isSome]
  cases v.findings.on? name with
  | none => rfl
  | some f => rfl

/-- The findings, by component and error, are what failed. -/
theorem findings_perm_failed {v : Verdict} (proper : v.design.Proper v.findings) :
    (v.findings.map fun f => (f.component, f.error)).Perm v.failed := by
  have named : ∀ l : Findings, (l.map fun f => (f.component, f.error)).map (·.1) =
      l.map (·.component) := fun l => by simp
  have nodup : (v.failed.map (·.1)).Nodup := by
    rw [failed_names]
    exact v.design.nodup_sortedNames.filter _
  refine (List.perm_ext_iff_of_nodup (List.Nodup.of_map (·.1) ?_) (nodup.of_map)).mpr ?_
  · rw [named]
    exact proper.nodup
  · rintro ⟨name, e⟩
    simp only [List.mem_map, failed, List.mem_filterMap, Option.map_eq_some_iff, Prod.mk.injEq]
    constructor
    · rintro ⟨f, hf, rfl, rfl⟩
      have known := proper.known _ (List.mem_map_of_mem hf)
      refine ⟨f.component, Design.mem_sortedNames.mpr known, f, ?_, rfl, rfl⟩
      obtain ⟨f', on⟩ := Option.isSome_iff_exists.mp
        (Findings.on?_isSome.trans (Findings.has_iff.mpr (List.mem_map_of_mem hf)))
      have same : f'.component = f.component := by simpa using List.find?_some on
      rw [on, List.inj_on_of_nodup_map proper.nodup (List.mem_of_find?_eq_some on) hf same]
    · rintro ⟨name', -, f, on, rfl, rfl⟩
      exact ⟨f, List.mem_of_find?_eq_some on, by simpa using List.find?_some on, rfl⟩

end Verdict

namespace Design

variable {d : Design}

/-- Every component is in the order or failed, once. -/
theorem order_append_failed_perm (d : Design) (top : String) :
    ((d.check top).order ++ (d.check top).failed.map (·.1)).Perm d.names := by
  have blocked : (d.graph.blocked.map d.nameOf).filter
      (fun name => !(d.check top).findings.has name) = [] := by
    refine List.filter_eq_nil_iff.mpr fun name mem => ?_
    obtain ⟨v, hv, rfl⟩ := List.mem_map.mp mem
    have broken : (d.check top).findings.has (d.nameOf v) = true :=
      check_has_iff.mpr (.inl (broken_of_blocked hv))
    simp [broken]
  -- the nodes are ordered or blocked, and of the blocked ones none passes
  have nodes := (d.graph.order_append_blocked_perm.map d.nameOf).filter
    fun name => !(d.check top).findings.has name
  rw [List.map_append, List.filter_append, blocked, List.append_nil, ← sortedNames_eq_map] at nodes
  rw [Verdict.order_eq, Verdict.failed_names]
  refine (nodes.append_right _).trans ?_
  refine (List.perm_append_comm.trans ?_).trans d.sortedNames_perm
  exact List.filter_append_perm _ _

theorem nodup_order (d : Design) (top : String) : (d.check top).order.Nodup :=
  (List.nodup_append.mp ((d.order_append_failed_perm top).symm.nodup d.distinct)).1

/-- A component passes where it has no finding. -/
theorem passes_iff {top name : String} :
    (!(d.check top).findings.has name) = true ↔
      ¬d.Broken name ∧ ¬(name = top ∧ d.RejectsTop top) := by
  rw [Bool.not_eq_true', ← Bool.not_eq_true, check_has_iff, not_or]

/-- The order has the components that are neither broken nor rejected as the top-level one. -/
theorem mem_order_iff {top name : String} :
    name ∈ (d.check top).order ↔
      name ∈ d.names ∧ ¬d.Broken name ∧ ¬(name = top ∧ d.RejectsTop top) := by
  rw [← passes_iff]
  constructor
  · intro ordered
    refine ⟨?_, (List.mem_filter.mp ordered).2⟩
    exact (d.order_append_failed_perm top).mem_iff.mp (List.mem_append_left _ ordered)
  · rintro ⟨known, passes⟩
    have mem := (d.order_append_failed_perm top).mem_iff.mpr known
    refine (List.mem_append.mp mem).resolve_right fun failed => ?_
    rw [Verdict.failed_names, List.mem_filter] at failed
    simp [failed.2] at passes

/-- The verdict where no top-level component is named: the failed components are the broken ones,
every component is in the order or failed, and each failure is reported once. -/
theorem check_exact (d : Design) :
    let v := d.check ""
    (∀ name, name ∈ v.failed.map (·.1) ↔ d.Broken name) ∧
      (v.order ++ v.failed.map (·.1)).Nodup ∧
      (v.order ++ v.failed.map (·.1)).Perm d.names ∧
      v.diagnostics = v.findings.map Finding.diagnostic ∧
      (v.findings.map fun f => (f.component, f.error)).Perm v.failed := by
  have perm := d.order_append_failed_perm ""
  have alone := d.check_without_top
  refine ⟨fun name => ?_, perm.symm.nodup d.distinct, perm, ?_, ?_⟩
  · rw [Verdict.failed_names, alone, List.mem_filter, findings_has_iff, mem_sortedNames]
    exact ⟨And.right, fun broken => ⟨broken.mem_names, broken⟩⟩
  · rw [Verdict.diagnostics, alone]
    exact List.append_nil _
  · refine Verdict.findings_perm_failed ?_
    rw [alone]
    exact d.findings_proper

end Design

/-! ## Closure under instantiation -/

/-- What a component of the order instantiates comes before it, and what a component of a batch
instantiates is in an earlier batch. -/
structure Verdict.DependencyClosed (v : Verdict) : Prop where
  order : ∀ before name after, v.order = before ++ name :: after →
    ∀ type, v.design.Instantiates name type → type ∈ before
  batches : ∀ before batch after, v.batches = before ++ batch :: after →
    ∀ name ∈ batch, ∀ type, v.design.Instantiates name type → ∃ earlier ∈ before, type ∈ earlier

namespace Design

variable {d : Design}

/-- The top-level component is rejected for its generics, and a component that is not broken
instantiates it. -/
def Strands (d : Design) (top : String) : Prop :=
  d.RejectsTop top ∧ ∃ user, ¬d.Broken user ∧ d.Instantiates user top

/-- Where an element of a filtered image comes from. -/
theorem filter_map_eq_append_cons {α β : Type} {f : α → β} {p : β → Bool} {l : List α}
    {before after : List β} {b : β} (h : (l.map f).filter p = before ++ b :: after) :
    ∃ front a back, l = front ++ a :: back ∧ f a = b ∧ p b = true ∧
      before = (front.map f).filter p ∧ after = (back.map f).filter p := by
  obtain ⟨front, rest, image, rfl, more⟩ := List.filter_eq_append_iff.mp h
  obtain ⟨skipped, back, rfl, none, keep, rfl⟩ := List.filter_eq_cons_iff.mp more
  obtain ⟨l₁, l₂, rfl, rfl, image₂⟩ := List.map_eq_append_iff.mp image
  obtain ⟨l₃, l₄, rfl, rfl, image₄⟩ := List.map_eq_append_iff.mp image₂
  obtain ⟨a, l₅, rfl, rfl, rfl⟩ := List.map_eq_cons_iff.mp image₄
  refine ⟨l₁ ++ l₃, a, l₅, by simp, rfl, keep, ?_, rfl⟩
  have none : (l₃.map f).filter p = [] := List.filter_eq_nil_iff.mpr none
  rw [List.map_append, List.filter_append, none, List.append_nil]

/-- A stranded user is in the order, what it instantiates is not. -/
theorem Strands.user {top : String} (strands : d.Strands top) :
    ∃ user ∈ (d.check top).order, d.Instantiates user top ∧ top ∉ (d.check top).order := by
  obtain ⟨rejected, user, sound, uses⟩ := strands
  refine ⟨user, mem_order_iff.mpr ⟨uses.mem_names, sound, ?_⟩, uses, ?_⟩
  · rintro ⟨rfl, -⟩
    exact sound (.cyclic (.single uses))
  · intro ordered
    exact (mem_order_iff.mp ordered).2.2 ⟨rfl, rejected⟩

/-- Unless the top-level component strands a user, what a component that passes instantiates
passes, too. -/
theorem passes_of_instantiates {top name type : String} (calm : ¬d.Strands top)
    (uses : d.Instantiates name type) (passes : (!(d.check top).findings.has name) = true) :
    type ∈ d.names ∧ (!(d.check top).findings.has type) = true := by
  rw [passes_iff] at passes ⊢
  obtain ⟨sound, -⟩ := passes
  refine ⟨?_, fun broken => sound (.uses uses broken), ?_⟩
  · by_contra unknown
    exact sound (.unknownType uses unknown)
  · rintro ⟨rfl, rejected⟩
    exact calm ⟨rejected, name, sound, uses⟩

theorem order_closed {top : String} (calm : ¬d.Strands top) {before after : List String}
    {name type : String} (split : (d.check top).order = before ++ name :: after)
    (uses : d.Instantiates name type) : type ∈ before := by
  obtain ⟨front, v, back, order, rfl, passes, rfl, -⟩ := filter_map_eq_append_cons split
  obtain ⟨known, passes'⟩ := passes_of_instantiates calm uses passes
  have order : d.graph.order = front ++ v :: back := order
  have ordered : v ∈ d.graph.order := by simp [order]
  have early := Graph.order_earlier order (dependsOn_of_mem_order ordered uses known)
  have named := nameOf_numberOf known
  exact List.mem_filter.mpr ⟨named ▸ List.mem_map_of_mem early, passes'⟩

/-- What a component of the order instantiates does not come behind it. -/
theorem not_mem_behind {top : String} {before after : List String} {name type : String}
    (split : (d.check top).order = before ++ name :: after) (uses : d.Instantiates name type)
    (known : type ∈ d.names) : type ∉ name :: after := by
  obtain ⟨front, v, back, order, rfl, -, -, rfl⟩ := filter_map_eq_append_cons split
  have order : d.graph.order = front ++ v :: back := order
  have ordered : v ∈ d.graph.order := by simp [order]
  have early := Graph.order_earlier order (dependsOn_of_mem_order ordered uses known)
  intro late
  have late : type ∈ (v :: back).map d.nameOf := by
    rcases List.mem_cons.mp late with rfl | late
    · exact List.mem_cons_self
    · exact List.mem_cons_of_mem _ (List.mem_filter.mp late).1
  obtain ⟨w, hw, rfl⟩ := List.mem_map.mp late
  have inside : w < d.sortedNames.length := by
    refine d.graph_size ▸ Graph.lt_size_of_mem_order ?_
    rw [order]
    exact List.mem_append_right _ hw
  rw [numberOf_nameOf inside] at early
  have nodup := d.graph.nodup_order
  rw [order] at nodup
  exact (List.nodup_append.mp nodup).2.2 w early w hw rfl

theorem batches_closed {top : String} (calm : ¬d.Strands top) {before after : List (List String)}
    {batch : List String} (split : (d.check top).batches = before ++ batch :: after)
    {name type : String} (mem : name ∈ batch) (uses : d.Instantiates name type) :
    ∃ earlier ∈ before, type ∈ earlier := by
  obtain ⟨front, layer, back, layers, rfl, -, rfl, -⟩ := filter_map_eq_append_cons split
  obtain ⟨image, passes⟩ := List.mem_filter.mp mem
  obtain ⟨v, hv, rfl⟩ := List.mem_map.mp image
  obtain ⟨known, passes'⟩ := passes_of_instantiates calm uses passes
  have layers : d.graph.layers = front ++ layer :: back := layers
  have ordered : v ∈ d.graph.order := List.mem_flatten.mpr ⟨layer, by simp [layers], hv⟩
  have early := Graph.layers_earlier layers hv (dependsOn_of_mem_order ordered uses known)
  obtain ⟨earlier, hearlier, hw⟩ := List.mem_flatten.mp early
  -- the batch of the earlier layer has the type in it, so it was not dropped for being empty
  have named := nameOf_numberOf known
  have there : type ∈ (d.check top).sound earlier :=
    List.mem_filter.mpr ⟨named ▸ List.mem_map_of_mem hw, passes'⟩
  refine ⟨_, List.mem_filter.mpr ⟨List.mem_map_of_mem hearlier, ?_⟩, there⟩
  simpa using List.ne_nil_of_mem there

/-- The order and the batches are closed under instantiation unless the top-level component strands
a user. -/
theorem check_dependencyClosed_iff (d : Design) (top : String) :
    (d.check top).DependencyClosed ↔ ¬d.Strands top := by
  constructor
  · intro closed strands
    obtain ⟨user, ordered, uses, missing⟩ := strands.user
    obtain ⟨before, after, split⟩ := List.append_of_mem ordered
    have early := closed.order before user after split top uses
    exact missing (split ▸ List.mem_append_left _ early)
  · exact fun calm =>
      ⟨fun _ _ _ split _ uses => order_closed calm split uses,
        fun _ _ _ split _ mem _ uses => batches_closed calm split mem uses⟩

/-- A register with a generic, and a component with an instance of it. -/
def registerUser : Design where
  components := [
    { name := "Reg", nameSpan := .zero, span := .zero, file := 0, widths := []
      items := [.generic .zero ⟨.generic, "W", .zero, .int, .scalar, .zero⟩] },
    { name := "Top", nameSpan := .zero, span := .zero, file := 0, widths := []
      items := [.arch ⟨.zero, "", .zero, [.inst .zero ⟨"r", .zero, "Reg", .zero, []⟩]⟩] }]
  distinct := by decide

/-- With the register as the top-level component, its user stays in the order without it. -/
theorem registerUser_not_closed : ¬(registerUser.check "Reg").DependencyClosed := by
  intro closed
  have order : (registerUser.check "Reg").order = [] ++ "Top" :: [] := by cbv
  have uses : registerUser.Instantiates "Top" "Reg" :=
    ⟨_, List.mem_cons_of_mem _ List.mem_cons_self, rfl, _, List.mem_cons_self, rfl⟩
  exact List.not_mem_nil (closed.order [] "Top" [] order "Reg" uses)

end Design
end CircuitCompiler
