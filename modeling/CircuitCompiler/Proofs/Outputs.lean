import CircuitCompiler.Proofs.Agreement
import CircuitCompiler.Proofs.Transparency

/-!
# Which components have an output

Emission goes through the components that passed the check, and each of them ends as an output or as
an error. The check has dropped the users of what it failed; nobody drops the users of what emission
refuses. So the components with an output are closed under instantiation as far as no user of a
refused component has one.

* `Build.Emitter.Outcome`: what can become of one job; every job ends so, in order;
* `Build.outputs_closed_iff`: when the outputs of a build are closed, and what emission refuses.
-/

namespace CircuitCompiler

/-- The signal for some path of the component has the name of a declaration. -/
def Component.Clashes (c : Component) : Prop := ∃ p ∈ c.dottedPaths, c.Collides p

/-- Where a component passes the check, exactly a clash makes its emission fail. -/
theorem Vhdl.emit_refuses_iff {d : Design} {top : String} {c : Component} {g : Generator}
    (parsed : c.Parsed) (known : c ∈ d.components) (passes : c.name ∈ (d.check top).order)
    (library : g.library = some d) : (∃ e, (g.emit c).1 = .error e) ↔ c.Clashes := by
  obtain ⟨leads, guarded⟩ := guarded_assigns parsed known passes
  have clashes : c.Clashes ↔ ((Lowering.start (some d) c).firstTaken? c.dottedPaths).isSome := by
    rw [Lowering.firstTaken?, List.find?_isSome]
    refine exists_congr fun p => and_congr_right fun hp => ?_
    rw [collides_iff (leads p hp), ← List.contains_iff_mem]
    rfl
  simp only [emit_error_iff, library, clashes]
  have run := guarded (.start (some d) c) (.refl _)
  cases taken : (Lowering.start (some d) c).firstTaken? c.dottedPaths with
  | none =>
    rw [taken] at run
    obtain ⟨_, l, runs, -⟩ := run
    simp only [lower, runs, Option.isSome_none, Bool.false_eq_true, iff_false]
    rintro ⟨e, fails⟩
    cases fails
  | some p =>
    rw [taken] at run
    obtain ⟨l, runs⟩ := run
    simp only [lower, runs, Option.isSome_some, iff_true]
    exact ⟨_, rfl⟩

namespace Build

/-! ## Jobs -/

namespace Emitter

variable {b : Analysis × Int} {cached : Bool}

/-- What becomes of a job of a build: the cache has its output, if there is a cache, or a generator
makes it or refuses to. -/
inductive Outcome (b : Analysis × Int) (cached : Bool) (j : Job) : Emitted → Prop where
  | stored (there : cached = true) (vhdl : String) :
    Outcome b cached j ⟨j.component.name, .ok ⟨j.component.name, j.source, vhdl, true, j.key⟩⟩
  | made {g : Vhdl.Generator} (serves : Serves g b) {vhdl : String}
    (emits : (g.emit j.component).1 = .ok vhdl) :
    Outcome b cached j ⟨j.component.name, .ok (j.output vhdl)⟩
  | refused {g : Vhdl.Generator} (serves : Serves g b) {e : CompileError}
    (fails : (g.emit j.component).1 = .error e) : Outcome b cached j ⟨j.component.name, .error e⟩

/-- The state of emission for a build, with a cache or without one. -/
structure Ready (b : Analysis × Int) (cached : Bool) (s : Emitter) : Prop where
  serves : Serves s.generator b
  cache : s.cache?.isSome = cached

theorem Ready.emit {s : Emitter} (ready : s.Ready b cached) (j : Job) :
    Outcome b cached j (s.emit j.component j.source j.key).1 ∧
      (s.emit j.component j.source j.key).2.Ready b cached := by
  unfold Emitter.emit
  split
  · next u stored =>
    obtain ⟨c, there, -⟩ := Option.bind_eq_some_iff.mp stored
    refine ⟨.stored ?_ u.vhdl, ready⟩
    rw [← ready.cache, there, Option.isSome_some]
  · have serves := ready.serves.emit j.component
    split
    · next e g fails =>
      rw [fails] at serves
      exact ⟨.refused ready.serves (by rw [fails]), serves, ready.cache⟩
    · next vhdl g emits =>
      rw [emits] at serves
      refine ⟨.made ready.serves (by rw [emits]), serves, ?_⟩
      rw [Option.isSome_map, ready.cache]

/-- Everything that is emitted is the outcome of one of the jobs. -/
theorem Ready.emitAll {s : Emitter} (ready : s.Ready b cached) {jobs : List Job} {x : Emitted}
    (hx : x ∈ (s.emitAll jobs).1) : ∃ j ∈ jobs, Outcome b cached j x := by
  induction jobs generalizing s with
  | nil => cases hx
  | cons j rest ih =>
    obtain ⟨outcome, next⟩ := ready.emit j
    rcases List.mem_cons.mp hx with rfl | later
    · exact ⟨j, List.mem_cons_self, outcome⟩
    · obtain ⟨j', hj', outcome'⟩ := ih next later
      exact ⟨j', List.mem_cons_of_mem j hj', outcome'⟩

theorem emit_name (s : Emitter) (j : Job) :
    (s.emit j.component j.source j.key).1.name = j.component.name := by
  unfold Emitter.emit
  split
  · rfl
  · split <;> rfl

theorem emitAll_names (s : Emitter) (jobs : List Job) :
    (s.emitAll jobs).1.map (·.name) = jobs.map (·.component.name) := by
  induction jobs generalizing s with
  | nil => rfl
  | cons j rest ih => exact congrArg₂ List.cons (s.emit_name j) (ih _)

theorem Outcome.name {j : Job} {x : Emitted} (outcome : Outcome b cached j x) :
    x.name = j.component.name := by
  cases outcome <;> rfl

/-- An output bears the name of its component. -/
theorem Outcome.output_name {j : Job} {x : Emitted} (outcome : Outcome b cached j x) {o : Output}
    (ok : x.result = .ok o) : o.name = x.name := by
  cases outcome with
  | stored | made =>
    cases ok
    rfl
  | refused => cases ok

end Emitter

namespace Emission

/-- The component has an output. -/
def Provides (e : Emission) (name : String) : Prop := ∃ o ∈ e.outputs, o.name = name

/-- The component could not be emitted. -/
def Refuses (e : Emission) (name : String) : Prop := ∃ err, (name, err) ∈ e.errors

theorem mem_outputs {e : Emission} {o : Output} :
    o ∈ e.outputs ↔ ∃ x ∈ e.emitted, x.result = .ok o := by
  unfold outputs
  rw [List.mem_filterMap]
  refine exists_congr fun x => and_congr_right fun _ => ?_
  cases x.result with
  | error err => simp [Except.toOption]
  | ok o' => simp [Except.toOption]

theorem refuses_iff {e : Emission} {name : String} :
    e.Refuses name ↔ ∃ x ∈ e.emitted, x.name = name ∧ ∃ err, x.result = .error err := by
  unfold Refuses errors
  constructor
  · rintro ⟨err, mem⟩
    obtain ⟨x, hx, here⟩ := List.mem_filterMap.mp mem
    split at here
    · next err' fails =>
      cases here
      exact ⟨x, hx, rfl, _, fails⟩
    · cases here
  · rintro ⟨x, hx, rfl, err, fails⟩
    refine ⟨err, List.mem_filterMap.mpr ⟨x, hx, ?_⟩⟩
    rw [fails]

/-- Every component with an output has what it instantiates among the outputs, too. -/
def Closed (e : Emission) (d : Design) : Prop :=
  ∀ user type, d.Instantiates user type → e.Provides user → e.Provides type

end Emission

/-! ## The emission of an analysis -/

namespace Analysis.Faithful

variable {a : Analysis} (faithful : a.Faithful)

include faithful

/-- There is a job for every component that passed the check, in their order. -/
theorem jobs_names (indent : Int) : (a.jobs indent).map (·.component.name) = a.verdict.order := by
  rw [Analysis.jobs, List.map_filterMap]
  refine (List.filterMap_congr (g := some) fun name passed => ?_).trans List.filterMap_some
  rw [faithful.verdict] at passed
  obtain ⟨c, hc, rfl⟩ := List.mem_map.mp (Design.mem_order_iff.mp passed).1
  rw [Design.get?_eq_some_iff.mpr ⟨hc, rfl⟩]
  rfl

/-- A registered component was read from its chunk, where no name was declared before. -/
theorem parsed {c : Component} (hc : c ∈ a.design.components) : c.Parsed := by
  obtain ⟨chunk, f, keepText, -, -, read⟩ := faithful.chunk hc
  unfold Chunk.parse at read
  simp only at read
  split at read
  · cases read
  · next comp r run =>
    have same : comp = c := by
      split at read <;> cases read
      rfl
    subst same
    exact ⟨_, _, r, run, rfl⟩

end Analysis.Faithful

/-- What is emitted for an analysis are the outcomes of its jobs. -/
theorem Analysis.emit_outcome (a : Analysis) (indent : Int) (cache? : Option Cache) :
    ∃ b : Analysis × Int, b.1 = a ∧ ∀ x ∈ (a.emit indent cache?).emitted,
      ∃ j ∈ a.jobs b.2, Emitter.Outcome b cache?.isSome j x := by
  refine ⟨(a, if indent = 0 then Emitter.defaultIndent else indent), rfl, fun x hx => ?_⟩
  have ready : Emitter.Ready (a, if indent = 0 then Emitter.defaultIndent else indent)
      cache?.isSome ⟨cache?, { library := some a.design, indent := _ }⟩ := ⟨⟨rfl, rfl⟩, rfl⟩
  exact ready.emitAll hx

namespace Analysis.Faithful

variable {a : Analysis} (faithful : a.Faithful) (indent : Int) (cache? : Option Cache)

include faithful

/-- Emission goes through the components that passed the check. -/
theorem emitted_names : (a.emit indent cache?).emitted.map (·.name) = a.verdict.order := by
  rw [← faithful.jobs_names (if indent = 0 then Emitter.defaultIndent else indent)]
  exact Emitter.emitAll_names _ _

/-- A component that passed the check has an output or is refused, not both. -/
theorem provides_iff {name : String} :
    (a.emit indent cache?).Provides name ↔
      name ∈ a.verdict.order ∧ ¬(a.emit indent cache?).Refuses name := by
  obtain ⟨b, -, outcomes⟩ := a.emit_outcome indent cache?
  have names := faithful.emitted_names indent cache?
  have nodup : ((a.emit indent cache?).emitted.map (·.name)).Nodup := by
    rw [names, faithful.verdict]
    exact a.design.nodup_order a.top
  rw [Emission.refuses_iff, ← names]
  constructor
  · rintro ⟨o, ho, rfl⟩
    obtain ⟨x, hx, ok⟩ := Emission.mem_outputs.mp ho
    obtain ⟨j, -, outcome⟩ := outcomes x hx
    have named : o.name = x.name := outcome.output_name ok
    refine ⟨named ▸ List.mem_map_of_mem hx, ?_⟩
    rintro ⟨y, hy, same, err, fails⟩
    -- the names are distinct, so it would be the same component
    obtain rfl := List.inj_on_of_nodup_map nodup hy hx (same.trans named)
    rw [ok] at fails
    cases fails
  · rintro ⟨passed, made⟩
    obtain ⟨x, hx, rfl⟩ := List.mem_map.mp passed
    obtain ⟨j, -, outcome⟩ := outcomes x hx
    cases result : x.result with
    | error err => exact absurd ⟨x, hx, rfl, err, result⟩ made
    | ok o => exact ⟨o, Emission.mem_outputs.mpr ⟨x, hx, result⟩, outcome.output_name result⟩

omit indent cache? in
/-- A registered component that passed the check is refused by a generator of the build exactly if
it clashes. -/
theorem fails_iff {b : Analysis × Int} (same : b.1 = a) {c : Component}
    (hc : c ∈ a.design.components) (passed : c.name ∈ a.verdict.order) {g : Vhdl.Generator}
    (serves : Serves g b) : (∃ e, (g.emit c).1 = .error e) ↔ c.Clashes := by
  subst same
  rw [faithful.verdict] at passed
  exact Vhdl.emit_refuses_iff (faithful.parsed hc) hc passed serves.library

/-- What was emitted under the name of a registered component is the outcome of its job. -/
theorem outcome_of_name {c : Component} (hc : c ∈ a.design.components) {x : Emitted}
    (hx : x ∈ (a.emit indent cache?).emitted) (named : x.name = c.name) :
    ∃ b j, b.1 = a ∧ j.component = c ∧ Emitter.Outcome b cache?.isSome j x := by
  obtain ⟨b, rfl, outcomes⟩ := a.emit_outcome indent cache?
  obtain ⟨j, hj, outcome⟩ := outcomes x hx
  have keyed := faithful.jobs b.2 j hj
  refine ⟨b, j, rfl, ?_, outcome⟩
  apply List.inj_on_of_nodup_map b.1.design.distinct keyed.mem hc
  rw [← named, outcome.name]

/-- Emission refuses components that passed the check and clash. -/
theorem clashes_of_refuses {c : Component} (hc : c ∈ a.design.components)
    (refuses : (a.emit indent cache?).Refuses c.name) :
    c.name ∈ a.verdict.order ∧ c.Clashes := by
  obtain ⟨x, hx, named, err, fails⟩ := Emission.refuses_iff.mp refuses
  have passed : c.name ∈ a.verdict.order := by
    rw [← faithful.emitted_names indent cache?, ← named]
    exact List.mem_map_of_mem hx
  obtain ⟨b, j, same, rfl, outcome⟩ := faithful.outcome_of_name indent cache? hc hx named
  refine ⟨passed, ?_⟩
  cases outcome with
  | stored | made => cases fails
  | refused serves refused => exact (faithful.fails_iff same hc passed serves).mp ⟨_, refused⟩

/-- Without a cache, emission refuses every such component. -/
theorem refuses_of_clashes {c : Component} (hc : c ∈ a.design.components)
    (passed : c.name ∈ a.verdict.order) (clashes : c.Clashes) :
    (a.emit indent none).Refuses c.name := by
  have emitted := passed
  rw [← faithful.emitted_names indent none] at emitted
  obtain ⟨x, hx, named⟩ := List.mem_map.mp emitted
  obtain ⟨b, j, same, rfl, outcome⟩ := faithful.outcome_of_name indent none hc hx named
  refine Emission.refuses_iff.mpr ⟨x, hx, named, ?_⟩
  cases outcome with
  | stored there => cases there
  | made serves emits =>
    obtain ⟨e, fails⟩ := (faithful.fails_iff same hc passed serves).mpr clashes
    rw [emits] at fails
    cases fails
  | refused => exact ⟨_, rfl⟩

end Analysis.Faithful

/-! ## Builds -/

/-- The components of a build that have an output are closed under instantiation exactly if no user
of a component that emission refuses has one. Emission refuses components that passed the check and
clash, and all of them where there is no cache. -/
theorem outputs_closed_iff (t : FileTree) (cache? : Option Cache) (r : Request)
    (untopped : r.top = "") :
    let a := (run t cache? r).analysis
    let e := (run t cache? r).emission
    (e.Closed a.design ↔
        ∀ user type, a.design.Instantiates user type → e.Provides user → ¬e.Refuses type) ∧
      ∀ c ∈ a.design.components,
        (e.Refuses c.name → c.name ∈ a.verdict.order ∧ c.Clashes) ∧
          (cache? = none → c.name ∈ a.verdict.order → c.Clashes → e.Refuses c.name) := by
  have faithful := analysed_faithful t r
  refine ⟨⟨fun closed user type uses provides => ?_, fun apart user type uses provides => ?_⟩,
    fun c hc => ⟨faithful.clashes_of_refuses r.indent cache? hc, ?_⟩⟩
  · exact ((faithful.provides_iff r.indent cache?).mp (closed user type uses provides)).2
  · refine (faithful.provides_iff r.indent cache?).mpr ⟨?_, apart user type uses provides⟩
    -- the check has no top-level component that it could fail after its users
    have calm : ¬(analysed t r).1.design.Strands (analysed t r).1.top := by
      rintro ⟨⟨named, -⟩, -⟩
      exact named untopped
    have passed := ((faithful.provides_iff r.indent cache?).mp provides).1
    rw [faithful.verdict] at passed ⊢
    obtain ⟨before, after, split⟩ := List.append_of_mem passed
    have early := Design.order_closed calm split uses
    rw [split]
    exact List.mem_append_left _ early
  · rintro rfl passed clashes
    exact faithful.refuses_of_clashes r.indent hc passed clashes

/-- A register and its user: nothing is refused, and both have an output. -/
theorem outputs_closed_iff_register :
    (run (registerTree "W") none (registerRequest "")).emission.Closed
      (registered "W").design := by
  have design : (run (registerTree "W") none (registerRequest "")).analysis.design =
      (registered "W").design := design_register (.inl rfl) ""
  obtain ⟨closed, exact⟩ := outputs_closed_iff (registerTree "W") none (registerRequest "") rfl
  rw [design] at closed exact
  refine closed.mpr fun user type uses _ refuses => ?_
  -- neither component has a dotted path, so neither can clash
  have quiet : ∀ c ∈ (registered "W").design.components, c.dottedPaths = [] := by decide
  obtain ⟨c, hc, -, i, hi, rfl⟩ := uses
  have known : i.type ∈ (registered "W").design.names := by
    have types : ∀ c ∈ (registered "W").design.components, ∀ i ∈ c.instances,
        i.type ∈ (registered "W").design.names := by decide
    exact types c hc i hi
  obtain ⟨sub, hsub, named⟩ := Design.exists_of_mem_names known
  rw [← named] at refuses
  obtain ⟨-, p, hp, -⟩ := (exact sub hsub).1 refuses
  rw [quiet sub hsub] at hp
  exact List.not_mem_nil hp

/-- A component, a component that drives its port and declares a signal with the name that stands
for the port, and a user of the latter. -/
def refusedText : Bytes :=
  Bytes.ofString ("component C\x7bport\x7binput vec x;\x7d\x7d" ++
    "component B\x7barch\x7bC u=new C();signal vec u_x;u.x<=u_x;\x7d\x7d" ++
    "component A\x7barch\x7bB b=new B();\x7d\x7d")

/-- One file, named `S`. -/
def singleTree (raw : Bytes) : FileTree := ⟨[], [(["S"], .file raw)]⟩

/-- A file is read as it is if it has no byte order mark and no carriage returns. -/
theorem files_single {raw : Bytes} (unmarked : raw.startsWith SourceFile.byteOrderMark = false)
    (noReturns : SourceFile.hasCarriageReturns raw = false)
    (unified : SourceFile.unifyNewlines raw = raw) :
    (loadSources (singleTree raw) ["S"]).files = ⟨[⟨0, "S", raw, 0⟩]⟩ := by
  have read : (loadSources (singleTree raw) ["S"]).files = (FileSet.addLoaded {} "S" raw).2 := by
    cbv
  rw [read]
  simp only [FileSet.addLoaded, unmarked, Bool.false_eq_true, if_false, noReturns, unified]
  rfl

/-- The files of a build of all three. -/
def refusedFiles : FileSet := ⟨[⟨0, "S", refusedText, 0⟩]⟩

/-- The component that emission refuses, as it is read. -/
def refusedComponent : Component where
  name := "B"
  nameSpan := ⟨0, 41, 42⟩
  span := ⟨0, 31, 86⟩
  file := 0
  items := [.arch ⟨⟨0, 43, 85⟩, "implementation", .zero, [
    .inst ⟨0, 48, 60⟩ ⟨"u", ⟨0, 50, 51⟩, "C", ⟨0, 48, 49⟩, []⟩,
    .decl ⟨.signal, "u_x", ⟨0, 71, 74⟩, .vec, .scalar, ⟨0, 60, 74⟩⟩,
    .assign ⟨0, 75, 84⟩ (.ref ⟨⟨"u", ⟨0, 75, 76⟩⟩, [⟨"x", ⟨0, 77, 78⟩⟩]⟩)
      (.ref ⟨⟨"u_x", ⟨0, 80, 83⟩⟩, []⟩)]⟩]
  widths := [("u_x", .scalar)]

/-- The user of the refused component, as it is read. -/
def refusedUser : Component where
  name := "A"
  nameSpan := ⟨0, 96, 97⟩
  span := ⟨0, 86, 117⟩
  file := 0
  items := [.arch ⟨⟨0, 98, 116⟩, "implementation", .zero, [
    .inst ⟨0, 103, 115⟩ ⟨"b", ⟨0, 105, 106⟩, "B", ⟨0, 103, 104⟩, []⟩]⟩]
  widths := []

/-- The three components as they are read. -/
def refusedDesign : Design where
  components := [
    ⟨"C", ⟨0, 10, 11⟩, ⟨0, 0, 31⟩, 0, [.ports ⟨0, 12, 30⟩
      [⟨.port .input, "x", ⟨0, 27, 28⟩, .vec, .scalar, ⟨0, 17, 28⟩⟩]], [("x", .scalar)]⟩,
    refusedComponent, refusedUser]
  distinct := by decide

theorem files_refused : (loadSources (singleTree refusedText) ["S"]).files = refusedFiles :=
  files_single (by decide +kernel) (by decide +kernel) (by decide +kernel)

/-- A build of the file without a cache. -/
def refusedRun : Run := run (singleTree refusedText) none { roots := ["S"] }

theorem design_refused : refusedRun.analysis.design = refusedDesign := by
  apply Design.ext_components
  have read : (Registration.ofEntries (Analysis.entries (Analysis.chunksOf refusedFiles)
      ((Analysis.chunksOf refusedFiles).map
        (Analysis.parseChunk refusedFiles false)))).design.components =
      refusedDesign.components := by decide +kernel
  rw [← files_refused] at read
  exact read

/-- The user of a component that emission refuses keeps its output. -/
theorem refused_not_closed : ¬refusedRun.emission.Closed refusedRun.analysis.design := by
  intro closed
  have faithful : refusedRun.analysis.Faithful := analysed_faithful _ _
  have provides_iff : ∀ name, refusedRun.emission.Provides name ↔
      name ∈ refusedRun.analysis.verdict.order ∧ ¬refusedRun.emission.Refuses name :=
    fun _ => faithful.provides_iff 0 none
  have order : refusedRun.analysis.verdict.order = ["C", "B", "A"] := by
    rw [faithful.verdict, design_refused]
    show (refusedDesign.check "").order = ["C", "B", "A"]
    cbv
  have used : refusedComponent ∈ refusedDesign.components := by decide
  have user : refusedUser ∈ refusedDesign.components := by decide
  have uses : refusedDesign.Instantiates "A" "B" := ⟨_, user, rfl, _, List.mem_cons_self, rfl⟩
  rw [← design_refused] at used user uses
  -- the user has no dotted path that could clash
  have provides : refusedRun.emission.Provides "A" := by
    refine (provides_iff "A").mpr ⟨by simp [order], fun refuses => ?_⟩
    obtain ⟨-, p, hp, -⟩ := faithful.clashes_of_refuses 0 none user refuses
    have quiet : refusedUser.dottedPaths = [] := by decide
    rw [quiet] at hp
    exact List.not_mem_nil hp
  have clashes : refusedComponent.Clashes :=
    ⟨⟨⟨"u", ⟨0, 75, 76⟩⟩, [⟨"x", ⟨0, 77, 78⟩⟩]⟩, by decide, "u", "x", by decide, by decide⟩
  have refuses : refusedRun.emission.Refuses "B" :=
    faithful.refuses_of_clashes 0 used (by rw [order]; decide) clashes
  exact ((provides_iff "B").mp (closed "A" "B" uses provides)).2 refuses

end Build
end CircuitCompiler
