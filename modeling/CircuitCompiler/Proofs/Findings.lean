import CircuitCompiler.Proofs.Numbering

/-!
# What the check finds

A component is `Broken` for one of five causes, the last of which is that it instantiates a broken
one. The check makes its findings in passes, each of which skips what is broken already:
`Design.sweep` is one pass, and `Design.spread` repeats the last one.

* `Design.sweep_induct`, `Design.sweep_finds`: what a pass keeps and what it finds;
* `Design.spread_closed`: after as many rounds as there are components no further one changes
  anything;
* `Design.findings_has_iff`: the components with a finding are the broken ones.
-/

namespace CircuitCompiler

/-! ## Broken components -/

/-- The instance that a name stands for in a component; of several, the last. -/
def Component.Denotes (c : Component) (name : String) (i : Instance) : Prop :=
  ∃ before after, c.instances = before ++ i :: after ∧ i.name = name ∧ ∀ j ∈ after, j.name ≠ name

namespace Design

/-- A dotted path leads to a port of an instance. -/
def LeadsToPort (d : Design) (c : Component) (p : Path) : Prop :=
  ∃ i port, c.Denotes p.head.name i ∧ p.tail = [port] ∧
    ∃ sub ∈ d.components, sub.name = i.type ∧ ∃ decl ∈ sub.ports, decl.name = port.name

/-- The components that do not pass the check: the least set with those that are wrong by
themselves and those that instantiate one of the set. -/
inductive Broken (d : Design) : String → Prop
  /-- The name is a smaller name up to case. -/
  | collides {name smaller : String} : name ∈ d.names → smaller ∈ d.names → smaller < name →
      foldCase smaller = foldCase name → Broken d name
  | unknownType {name type : String} : d.Instantiates name type → type ∉ d.names → Broken d name
  | badPath {c : Component} {p : Path} : c ∈ d.components → p ∈ c.dottedPaths →
      ¬d.LeadsToPort c p → Broken d c.name
  | cyclic {name : String} : Relation.TransGen d.Instantiates name name → Broken d name
  | uses {name type : String} : d.Instantiates name type → Broken d type → Broken d name

theorem Broken.mem_names {d : Design} {name : String} (h : d.Broken name) : name ∈ d.names := by
  cases h with
  | collides known _ _ _ => exact known
  | unknownType uses _ => exact uses.mem_names
  | badPath hc _ _ => exact List.mem_map_of_mem hc
  | cyclic cycle =>
    obtain ⟨_, first, -⟩ := Relation.TransGen.head'_iff.mp cycle
    exact first.mem_names
  | uses uses _ => exact uses.mem_names

end Design

/-! ## Findings -/

namespace Findings

theorem has_iff {fs : Findings} {name : String} :
    fs.has name = true ↔ name ∈ fs.map (·.component) := by
  simp [has]

theorem has_of_prefix {fs fs' : Findings} (h : fs <+: fs') {name : String}
    (found : fs.has name = true) : fs'.has name = true := by
  rw [has_iff] at found ⊢
  exact (h.map _).subset found

theorem on?_isSome {fs : Findings} {name : String} : (fs.on? name).isSome = fs.has name := by
  rw [Bool.eq_iff_iff, on?, List.find?_isSome, has, List.any_eq_true]

end Findings

namespace Design

variable {d : Design} {names : List String} {test : Findings → String → Option Finding}

/-! ## Passes -/

/-- What a pass keeps when it adds a finding it keeps altogether. -/
theorem sweep_induct {P : Findings → Prop} {fs : Findings} (start : P fs)
    (step : ∀ fs name f, name ∈ names → P fs → fs.has name = false → test fs name = some f →
      P (fs ++ [f])) : P (sweep test names fs) := by
  induction names generalizing fs with
  | nil => exact start
  | cons name rest ih =>
    have rest_step : ∀ fs name' f, name' ∈ rest → P fs → fs.has name' = false →
        test fs name' = some f → P (fs ++ [f]) := fun fs name' f mem =>
      step fs name' f (List.mem_cons_of_mem name mem)
    rw [sweep, List.foldl_cons]
    apply ih _ rest_step
    split
    · exact start
    · next new =>
      split
      · next f found => exact step fs name f List.mem_cons_self start (by simpa using new) found
      · exact start

theorem prefix_sweep (test : Findings → String → Option Finding) (names : List String)
    (fs : Findings) : fs <+: sweep test names fs :=
  sweep_induct (P := (fs <+: ·)) List.prefix_rfl fun _ _ _ _ kept _ _ =>
    kept.trans (List.prefix_append _ _)

/-- A pass finds whatever its test finds, no matter what was found before. -/
theorem sweep_finds {fs : Findings} {name : String} (mem : name ∈ names)
    (named : ∀ fs f, test fs name = some f → f.component = name)
    (finds : ∀ fs', fs <+: fs' → (test fs' name).isSome = true) :
    (sweep test names fs).has name = true := by
  induction names generalizing fs with
  | nil => cases mem
  | cons first rest ih =>
    rw [sweep, List.foldl_cons]
    rcases List.mem_cons.mp mem with rfl | mem
    · refine Findings.has_of_prefix (prefix_sweep test rest _) ?_
      split
      · next known => exact known
      · split
        · next f found => simp [Findings.has_iff, named fs f found]
        · next none =>
          have := finds fs List.prefix_rfl
          rw [none] at this
          cases this
    · refine ih mem fun fs' h => finds fs' (List.IsPrefix.trans ?_ h)
      exact prefix_sweep test [first] fs

/-- A pass adds one finding for a component at most. -/
theorem sweep_nodup {fs : Findings} (nodup : (fs.map (·.component)).Nodup)
    (named : ∀ fs name f, test fs name = some f → f.component = name) :
    ((sweep test names fs).map (·.component)).Nodup := by
  refine sweep_induct (P := fun fs => (fs.map (·.component)).Nodup) nodup ?_
  intro fs name f _ nodup new found
  rw [List.map_append, List.map_singleton, named fs name f found]
  refine List.nodup_append.mpr ⟨nodup, by simp, ?_⟩
  rintro a ha b hb rfl
  rw [List.mem_singleton.mp hb, ← Findings.has_iff, new] at ha
  cases ha

/-! ## The single tests -/

/-- The collisions are the names that come behind the same name up to case. -/
theorem mem_collisions {seen names : List String} {name : String} :
    name ∈ (d.collisions seen names).map (·.component) ↔
      ∃ before after, names = before ++ name :: after ∧
        ∃ earlier ∈ seen ++ before, foldCase earlier = foldCase name := by
  induction names generalizing seen with
  | nil => simp [collisions]
  | cons first rest ih =>
    rw [collisions]
    cases found : seen.find? fun s => foldCase s == foldCase first with
    | some earlier =>
      -- the first name collides, and it need not be remembered: the name it collides with is
      have same : foldCase earlier = foldCase first := by simpa using List.find?_some found
      have mem := List.mem_of_find?_eq_some found
      simp only [List.map_cons, List.mem_cons, ih]
      constructor
      · rintro (rfl | ⟨before, after, rfl, e, he, eq⟩)
        · exact ⟨[], rest, rfl, earlier, by simpa using mem, same⟩
        · refine ⟨first :: before, after, rfl, e, ?_, eq⟩
          simp only [List.mem_append, List.mem_cons] at he ⊢
          tauto
      · rintro ⟨before, after, split, e, he, eq⟩
        rcases List.cons_eq_append_iff.mp split with ⟨rfl, here⟩ | ⟨before', rfl, rfl⟩
        · cases here
          exact .inl rfl
        · refine .inr ⟨before', after, rfl, ?_⟩
          rcases List.mem_append.mp he with he | he
          · exact ⟨e, List.mem_append_left _ he, eq⟩
          · rcases List.mem_cons.mp he with rfl | he
            · exact ⟨earlier, List.mem_append_left _ mem, same.trans eq⟩
            · exact ⟨e, List.mem_append_right _ he, eq⟩
    | none =>
      have fresh : ∀ s ∈ seen, foldCase s ≠ foldCase first := by simpa using found
      simp only [ih]
      constructor
      · rintro ⟨before, after, rfl, e, he, eq⟩
        refine ⟨first :: before, after, rfl, e, ?_, eq⟩
        rwa [List.append_cons]
      · rintro ⟨before, after, split, e, he, eq⟩
        rcases List.cons_eq_append_iff.mp split with ⟨rfl, here⟩ | ⟨before', rfl, rfl⟩
        · cases here
          rw [List.append_nil] at he
          exact absurd eq (fresh e he)
        · exact ⟨before', after, rfl, e, by rwa [← List.append_cons], eq⟩

theorem instanceType?_eq_some_iff {c : Component} {name type : String} :
    c.instanceType? name = some type ↔ ∃ i, c.Denotes name i ∧ i.type = type := by
  rw [Component.instanceType?, Option.map_eq_some_iff]
  refine exists_congr fun i => and_congr_left fun _ => ?_
  rw [List.find?_eq_some_iff_append]
  constructor
  · rintro ⟨name, front, back, split, others⟩
    have split := congrArg List.reverse split
    rw [List.reverse_reverse, List.reverse_append, List.reverse_cons, List.append_assoc] at split
    refine ⟨back.reverse, front.reverse, split, by simpa using name, fun j hj => ?_⟩
    simpa using others j (by simpa using hj)
  · rintro ⟨before, after, split, name, others⟩
    refine ⟨by simpa using name, after.reverse, before.reverse, by simp [split], fun j hj => ?_⟩
    simpa using others j (by simpa using hj)

theorem port?_isSome_iff {type port : String} :
    ((d.get? type).bind (·.port? port)).isSome = true ↔
      ∃ sub ∈ d.components, sub.name = type ∧ ∃ decl ∈ sub.ports, decl.name = port := by
  cases found : d.get? type with
  | none =>
    simp only [Option.bind_none, Option.isSome_none, Bool.false_eq_true, false_iff]
    rintro ⟨sub, mem, name, -⟩
    rw [get?_eq_some_iff.mpr ⟨mem, name⟩] at found
    cases found
  | some sub =>
    obtain ⟨mem, name⟩ := get?_eq_some_iff.mp found
    rw [Option.bind_some, Component.port?, List.find?_isSome]
    simp only [beq_iff_eq]
    constructor
    · exact fun port => ⟨sub, mem, name, port⟩
    · rintro ⟨sub', mem', name', port⟩
      rwa [List.inj_on_of_nodup_map d.distinct mem' mem (name'.trans name.symm)] at port

theorem pathError?_eq_none_iff {c : Component} {p : Path} :
    d.pathError? c p = none ↔ d.LeadsToPort c p := by
  rw [pathError?]
  cases found : c.instanceType? p.head.name with
  | none =>
    simp only [reduceCtorEq, false_iff]
    rintro ⟨i, port, denotes, -⟩
    have := instanceType?_eq_some_iff.mpr ⟨i, denotes, rfl⟩
    rw [found] at this
    cases this
  | some type =>
    have typed : ∀ i, c.Denotes p.head.name i → i.type = type := by
      intro i denotes
      have := instanceType?_eq_some_iff.mpr ⟨i, denotes, rfl⟩
      rw [found] at this
      exact (Option.some.inj this).symm
    obtain ⟨i, denotes, -⟩ := instanceType?_eq_some_iff.mp found
    simp only
    split
    · next port one =>
      split
      · next known =>
        obtain ⟨sub, mem, name, ports⟩ := port?_isSome_iff.mp known
        simp only [true_iff]
        exact ⟨i, port, denotes, one, sub, mem, name.trans (typed i denotes).symm, ports⟩
      · next unknown =>
        simp only [reduceCtorEq, false_iff]
        rintro ⟨i', port', denotes', one', sub, mem, name, ports⟩
        rw [one] at one'
        cases one'
        exact unknown (port?_isSome_iff.mpr ⟨sub, mem, name.trans (typed i' denotes'), ports⟩)
    · next deep =>
      simp only [reduceCtorEq, false_iff]
      rintro ⟨_, port, _, one, _⟩
      exact deep port one

/-- A component is wrong inside where it has an instance of an unknown type or a path that leads to
no port. -/
theorem componentError?_isSome_iff {c : Component} :
    (d.componentError? c).isSome = true ↔ (∃ i ∈ c.instances, i.type ∉ d.names) ∨
      ∃ p ∈ c.dottedPaths, ¬d.LeadsToPort c p := by
  rw [componentError?]
  split
  · next i found =>
    have unknown := List.find?_some found
    simp only [Bool.not_eq_true', ← Bool.not_eq_true, has_iff] at unknown
    simp only [Option.isSome_some, true_iff]
    exact .inl ⟨i, List.mem_of_find?_eq_some found, unknown⟩
  · next known =>
    have known : ¬∃ i ∈ c.instances, i.type ∉ d.names := by
      rintro ⟨i, hi, unknown⟩
      have := List.find?_eq_none.mp known i hi
      simp only [Bool.not_eq_true', ← Bool.not_eq_true, has_iff] at this
      exact this unknown
    rw [List.findSome?_isSome_iff]
    simp only [known, false_or, ← pathError?_eq_none_iff, ← Option.isSome_iff_ne_none]

/-! ## Spreading -/

theorem insideTest_named (fs : Findings) (name : String) (f : Finding)
    (h : d.insideTest fs name = some f) : f.component = name := by
  simp only [insideTest, Option.bind_eq_bind, Option.bind_eq_some_iff] at h
  obtain ⟨c, -, e, -, h⟩ := h
  cases h
  rfl

theorem cycleTest_named (fs : Findings) (name : String) (f : Finding)
    (h : d.cycleTest fs name = some f) : f.component = name := by
  simp only [cycleTest, Option.bind_eq_bind, Option.bind_eq_some_iff] at h
  obtain ⟨v, -, cycle, -, h⟩ := h
  cases h
  rfl

theorem dependencyTest_named (fs : Findings) (name : String) (f : Finding)
    (h : d.dependencyTest fs name = some f) : f.component = name := by
  simp only [dependencyTest, Option.bind_eq_bind, Option.bind_eq_some_iff] at h
  obtain ⟨dep, -, cause, -, h⟩ := h
  cases h
  rfl

theorem dependencyTest_isSome_iff {fs : Findings} {name : String} :
    (d.dependencyTest fs name).isSome = true ↔
      ∃ dep, d.Instantiates name dep ∧ dep ∈ d.names ∧ fs.has dep = true := by
  simp only [dependencyTest, Option.bind_eq_bind]
  cases found : (d.depNames name).find? fs.has with
  | none =>
    simp only [Option.bind_none, Option.isSome_none, Bool.false_eq_true, false_iff]
    rintro ⟨dep, uses, known, broken⟩
    exact List.find?_eq_none.mp found dep (mem_depNames.mpr ⟨uses, known⟩) broken
  | some dep =>
    obtain ⟨uses, known⟩ := mem_depNames.mp (List.mem_of_find?_eq_some found)
    have broken : fs.has dep = true := List.find?_some found
    obtain ⟨cause, on⟩ := Option.isSome_iff_exists.mp (Findings.on?_isSome.trans broken)
    simp only [Option.bind_some, on, Option.isSome_some, true_iff]
    exact ⟨dep, uses, known, broken⟩

/-- One more round of spreading. -/
abbrev round (d : Design) (names : List String) (fs : Findings) : Findings :=
  sweep d.dependencyTest names fs

theorem prefix_round (names : List String) (fs : Findings) : fs <+: d.round names fs :=
  prefix_sweep d.dependencyTest names fs

theorem prefix_spread (names : List String) (rounds : Nat) (fs : Findings) :
    fs <+: d.spread names rounds fs := by
  induction rounds generalizing fs with
  | zero => exact List.prefix_rfl
  | succ rounds ih => exact (prefix_round names fs).trans (ih _)

theorem spread_induct {P : Findings → Prop} {names : List String} {fs : Findings}
    (step : ∀ fs, P fs → P (d.round names fs)) (start : P fs) (rounds : Nat) :
    P (d.spread names rounds fs) := by
  induction rounds generalizing fs with
  | zero => exact start
  | succ rounds ih => exact ih (step fs start)

/-- A round that changes nothing is the last one. -/
theorem spread_of_stable {names : List String} {fs : Findings} (stable : d.round names fs = fs)
    (rounds : Nat) : d.spread names rounds fs = fs := by
  induction rounds with
  | zero => rfl
  | succ rounds ih => rw [spread, show sweep d.dependencyTest names fs = fs from stable, ih]

/-- Until nothing changes, every round adds a finding. -/
theorem spread_stable_or_longer (names : List String) (rounds : Nat) (fs : Findings) :
    d.round names (d.spread names rounds fs) = d.spread names rounds fs ∨
      fs.length + rounds ≤ (d.spread names rounds fs).length := by
  induction rounds generalizing fs with
  | zero => exact .inr (Nat.le_refl _)
  | succ rounds ih =>
    -- a round that adds nothing is the last, any other adds one finding at least
    by_cases stable : d.round names fs = fs
    · exact .inl (by rw [spread_of_stable stable, stable])
    · have grows := prefix_round (d := d) names fs
      have longer : fs.length < (d.round names fs).length :=
        Nat.lt_of_le_of_ne grows.length_le fun same => stable (grows.eq_of_length same).symm
      rcases ih (d.round names fs) with done | long
      · exact .inl done
      · refine .inr ?_
        show fs.length + (rounds + 1) ≤ (d.spread names rounds (d.round names fs)).length
        omega

/-- The findings are about different components of the design. -/
structure Proper (d : Design) (fs : Findings) : Prop where
  nodup : (fs.map (·.component)).Nodup
  known : ∀ name ∈ fs.map (·.component), name ∈ d.names

theorem Proper.sweep {fs : Findings} (proper : d.Proper fs)
    (named : ∀ fs name f, test fs name = some f → f.component = name)
    (known : ∀ name ∈ names, name ∈ d.names) : d.Proper (sweep test names fs) := by
  refine ⟨sweep_nodup proper.nodup named, ?_⟩
  refine sweep_induct (P := fun fs => ∀ name ∈ fs.map (·.component), name ∈ d.names) proper.known ?_
  intro fs name f mem kept _ found other hother
  rw [List.map_append, List.map_singleton, List.mem_append, List.mem_singleton] at hother
  rcases hother with old | rfl
  · exact kept other old
  · exact named fs name f found ▸ known name mem

theorem Proper.length_le {fs : Findings} (proper : d.Proper fs) :
    fs.length ≤ d.sortedNames.length := by
  have := (proper.nodup.subperm fun name hname =>
    mem_sortedNames.mpr (proper.known name hname)).length_le
  rwa [List.length_map] at this

theorem Proper.round {fs : Findings} (proper : d.Proper fs) :
    d.Proper (d.round d.sortedNames fs) :=
  proper.sweep dependencyTest_named fun _ => mem_sortedNames.mp

theorem Proper.spread {fs : Findings} (proper : d.Proper fs) (rounds : Nat) :
    d.Proper (d.spread d.sortedNames rounds fs) :=
  spread_induct (fun _ kept => kept.round) proper rounds

/-- After as many rounds as there are components no further one changes anything. -/
theorem spread_closed {fs : Findings} (proper : d.Proper fs) :
    d.round d.sortedNames (d.spread d.sortedNames d.sortedNames.length fs) =
      d.spread d.sortedNames d.sortedNames.length fs := by
  rcases spread_stable_or_longer d.sortedNames d.sortedNames.length fs with done | long
  · exact done
  · -- every component is broken by now, so there is none left to find
    have most := (proper.spread d.sortedNames.length).round.length_le
    have grows := prefix_round (d := d) d.sortedNames
      (d.spread d.sortedNames d.sortedNames.length fs)
    exact (grows.eq_of_length_le (by omega)).symm

/-- Where no round changes anything, the users of broken components are broken. -/
theorem has_of_round_eq {fs : Findings} (stable : d.round d.sortedNames fs = fs)
    {user type : String} (uses : d.Instantiates user type) (known : type ∈ d.names)
    (broken : fs.has type = true) : fs.has user = true := by
  -- the last round looks at the user, with the findings on what it instantiates there already
  rw [← stable]
  refine sweep_finds (mem_sortedNames.mpr uses.mem_names)
    (fun fs f => dependencyTest_named fs user f) fun fs' later => ?_
  exact dependencyTest_isSome_iff.mpr ⟨type, uses, known, Findings.has_of_prefix later broken⟩

/-! ## All findings -/

/-- The names behind the same name up to case, and the components that are wrong inside. -/
def wrongInside (d : Design) : Findings :=
  sweep d.insideTest d.sortedNames (d.collisions [] d.sortedNames)

/-- These, and the components on cycles. -/
def wrongAlone (d : Design) : Findings :=
  sweep d.cycleTest (d.graph.blocked.map d.nameOf) d.wrongInside

theorem collisions_sublist (seen names : List String) :
    ((d.collisions seen names).map (·.component)).Sublist names := by
  induction names generalizing seen with
  | nil => exact .slnil
  | cons name rest ih =>
    rw [collisions]
    split
    · exact (ih seen).cons_cons name
    · exact (ih _).cons name

theorem collisions_proper (d : Design) : d.Proper (d.collisions [] d.sortedNames) where
  nodup := (collisions_sublist [] _).nodup d.nodup_sortedNames
  known _ h := mem_sortedNames.mp ((collisions_sublist [] _).subset h)

theorem nameOf_mem_of_blocked {name : String} (h : name ∈ d.graph.blocked.map d.nameOf) :
    name ∈ d.names := by
  obtain ⟨v, blocked, rfl⟩ := List.mem_map.mp h
  exact nameOf_mem (d.graph_size ▸ (Graph.mem_blocked.mp blocked).1)

theorem wrongAlone_proper (d : Design) : d.Proper d.wrongAlone :=
  (d.collisions_proper.sweep insideTest_named fun _ => mem_sortedNames.mp).sweep
    cycleTest_named fun _ => nameOf_mem_of_blocked

theorem findings_proper (d : Design) : d.Proper d.findings := d.wrongAlone_proper.spread _

/-- A name is an earlier one up to case where a smaller name is. -/
theorem collisions_has_iff {name : String} :
    (d.collisions [] d.sortedNames).has name = true ↔ name ∈ d.names ∧
      ∃ smaller ∈ d.names, smaller < name ∧ foldCase smaller = foldCase name := by
  rw [Findings.has_iff, mem_collisions]
  have sorted := d.sortedNames_sorted
  constructor
  · rintro ⟨before, after, split, earlier, mem, same⟩
    rw [List.nil_append] at mem
    rw [split] at sorted
    have known : ∀ other ∈ before ++ name :: after, other ∈ d.names := fun other h =>
      mem_sortedNames.mp (split ▸ h)
    exact ⟨known name (by simp), earlier, known earlier (by simp [mem]),
      (List.pairwise_append.mp sorted).2.2 earlier mem name (by simp), same⟩
  · rintro ⟨known, smaller, known', less, same⟩
    obtain ⟨before, after, split⟩ := List.append_of_mem (mem_sortedNames.mpr known)
    refine ⟨before, after, split, smaller, ?_, same⟩
    have mem : smaller ∈ before ++ name :: after := split ▸ mem_sortedNames.mpr known'
    rw [List.nil_append]
    rw [split] at sorted
    rcases List.mem_append.mp mem with early | late
    · exact early
    · exfalso
      rcases List.mem_cons.mp late with rfl | late
      · exact String.lt_irrefl _ less
      · have := (List.pairwise_cons.mp (List.pairwise_append.mp sorted).2.1).1 smaller late
        exact String.lt_irrefl _ (String.lt_trans less this)

theorem insideTest_isSome_iff {fs : Findings} {name : String} :
    (d.insideTest fs name).isSome = true ↔
      ∃ c ∈ d.components, c.name = name ∧ (d.componentError? c).isSome = true := by
  simp only [insideTest, Option.bind_eq_bind]
  constructor
  · intro found
    obtain ⟨f, found⟩ := Option.isSome_iff_exists.mp found
    obtain ⟨c, get, e, wrong, -⟩ := by simpa only [Option.bind_eq_some_iff] using found
    obtain ⟨mem, named⟩ := get?_eq_some_iff.mp get
    exact ⟨c, mem, named, by rw [wrong, Option.isSome_some]⟩
  · rintro ⟨c, mem, named, wrong⟩
    obtain ⟨e, wrong⟩ := Option.isSome_iff_exists.mp wrong
    rw [get?_eq_some_iff.mpr ⟨mem, named⟩, Option.bind_some, wrong, Option.bind_some,
      Option.isSome_some]

theorem cycleTest_isSome_iff {fs : Findings} {name : String} (known : name ∈ d.names) :
    (d.cycleTest fs name).isSome = true ↔ Relation.TransGen d.Instantiates name name := by
  rw [← cyclic_iff known, ← Graph.cycleThrough?_isSome_iff]
  simp only [cycleTest, Option.bind_eq_bind, number?_eq, if_pos known, Option.bind_some]
  cases d.graph.cycleThrough? (d.numberOf name) with
  | none => rfl
  | some cycle => rfl

/-- All findings are about broken components. -/
def Sound (d : Design) (fs : Findings) : Prop := ∀ name, fs.has name = true → d.Broken name

theorem Sound.sweep {fs : Findings} (sound : d.Sound fs)
    (named : ∀ fs name f, test fs name = some f → f.component = name)
    (broken : ∀ fs, ∀ name ∈ names, d.Sound fs → (test fs name).isSome = true → d.Broken name) :
    d.Sound (sweep test names fs) := by
  refine sweep_induct (P := d.Sound) sound fun fs name f mem kept _ found other has => ?_
  rw [Findings.has_iff, List.map_append, List.map_singleton, List.mem_append,
    List.mem_singleton] at has
  rcases has with old | rfl
  · exact kept other (Findings.has_iff.mpr old)
  · rw [named fs name f found]
    exact broken fs name mem kept (by rw [found, Option.isSome_some])

theorem collisions_sound (d : Design) : d.Sound (d.collisions [] d.sortedNames) := by
  intro name has
  obtain ⟨known, smaller, known', less, same⟩ := collisions_has_iff.mp has
  exact .collides known known' less same

theorem wrongInside_sound (d : Design) : d.Sound d.wrongInside := by
  refine d.collisions_sound.sweep insideTest_named fun fs name _ _ found => ?_
  obtain ⟨c, hc, rfl, wrong⟩ := insideTest_isSome_iff.mp found
  rcases componentError?_isSome_iff.mp wrong with ⟨i, hi, unknown⟩ | ⟨p, hp, bad⟩
  · exact .unknownType ⟨c, hc, rfl, i, hi, rfl⟩ unknown
  · exact .badPath hc hp bad

theorem wrongAlone_sound (d : Design) : d.Sound d.wrongAlone :=
  d.wrongInside_sound.sweep cycleTest_named fun _ _ blocked _ found =>
    .cyclic ((cycleTest_isSome_iff (nameOf_mem_of_blocked blocked)).mp found)

theorem findings_sound (d : Design) : d.Sound d.findings := by
  refine spread_induct (fun fs sound => ?_) d.wrongAlone_sound _
  refine sound.sweep dependencyTest_named fun fs name _ sound found => ?_
  obtain ⟨dep, uses, -, broken⟩ := dependencyTest_isSome_iff.mp found
  exact .uses uses (sound dep broken)

/-- A component that is wrong inside is found to be. -/
theorem wrongInside_has {c : Component} (hc : c ∈ d.components)
    (wrong : (d.componentError? c).isSome = true) : d.wrongInside.has c.name = true :=
  sweep_finds (mem_sortedNames.mpr (List.mem_map_of_mem hc))
    (fun fs f => insideTest_named fs c.name f) fun _ _ =>
      insideTest_isSome_iff.mpr ⟨c, hc, rfl, wrong⟩

theorem blocked_of_cyclic {name : String} (known : name ∈ d.names)
    (cycle : Relation.TransGen d.Instantiates name name) :
    d.numberOf name ∈ d.graph.blocked := by
  refine Graph.mem_blocked.mpr ⟨d.graph_size ▸ numberOf_lt known, fun ordered => ?_⟩
  exact Graph.not_cyclic_of_mem_order ordered ((cyclic_iff known).mpr cycle)

theorem wrongAlone_has {name : String} (known : name ∈ d.names)
    (cycle : Relation.TransGen d.Instantiates name name) : d.wrongAlone.has name = true := by
  have blocked : name ∈ d.graph.blocked.map d.nameOf :=
    List.mem_map.mpr ⟨_, blocked_of_cyclic known cycle, nameOf_numberOf known⟩
  exact sweep_finds blocked (fun fs f => cycleTest_named fs name f) fun _ _ =>
    (cycleTest_isSome_iff known).mpr cycle

/-- The components with a finding are the broken ones. -/
theorem findings_has_iff {name : String} : d.findings.has name = true ↔ d.Broken name := by
  refine ⟨d.findings_sound name, fun broken => ?_⟩
  -- later passes keep what earlier ones found
  have cyclesKeep : d.wrongInside <+: d.wrongAlone := prefix_sweep _ _ _
  have spreadKeeps : d.wrongAlone <+: d.findings := prefix_spread _ _ _
  have insideKeeps : d.collisions [] d.sortedNames <+: d.wrongInside := prefix_sweep _ _ _
  induction broken with
  | collides known known' less same =>
    have found := collisions_has_iff.mpr ⟨known, _, known', less, same⟩
    exact Findings.has_of_prefix (insideKeeps.trans (cyclesKeep.trans spreadKeeps)) found
  | unknownType uses unknown =>
    obtain ⟨c, hc, rfl, i, hi, rfl⟩ := uses
    have found := wrongInside_has hc (componentError?_isSome_iff.mpr (.inl ⟨i, hi, unknown⟩))
    exact Findings.has_of_prefix (cyclesKeep.trans spreadKeeps) found
  | badPath hc hp bad =>
    have found := wrongInside_has hc (componentError?_isSome_iff.mpr (.inr ⟨_, hp, bad⟩))
    exact Findings.has_of_prefix (cyclesKeep.trans spreadKeeps) found
  | cyclic cycle =>
    exact Findings.has_of_prefix spreadKeeps (wrongAlone_has (Broken.cyclic cycle).mem_names cycle)
  | uses uses broken ih =>
    exact has_of_round_eq (spread_closed d.wrongAlone_proper) uses broken.mem_names ih

end Design
end CircuitCompiler
