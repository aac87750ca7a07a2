import CircuitCompiler.Build.Pipeline
import CircuitCompiler.Proofs.Keys

/-!
# Builds with a cache

A cache is filled by builds, dropped, and spoilt here and there. Whatever its history, what it gives
out for a key is the VHDL that some build made for it: `Cache.Backed`. A build whose top-level
component strands no user finds under its own keys what it would make itself.

* `Build.Emitter.Proper.emitAll`, `Build.History.cache_backed`: emission and all other events keep a
  cache backed;
* `Build.outputs_transparent`: a build with the cache has the outputs of the build without one.
-/

namespace CircuitCompiler

/-! ## What a cache holds -/

namespace Cache

theorem entry_store (c : Cache) (key key' : Digest) (e : CacheEntry) :
    Cache.entry? (c.store key e) key' = if key' = key then some e else c.entry? key' := by
  by_cases same : key' = key
  · subst same
    have none : (c.entries.filter fun f => f.1 != key').find? (fun f => f.1 == key') = none := by
      refine List.find?_eq_none.mpr fun f hf => ?_
      simpa using (List.mem_filter.mp hf).2
    simp [ entry?, store, List.find?_append, none]
  · have other : (key == key') = false := by simpa using fun h => same h.symm
    have kept : (c.entries.filter fun f => f.1 != key).find? (fun f => f.1 == key') =
        c.entries.find? fun f => f.1 == key' := by
      rw [List.find?_filter]
      refine congrArg (c.entries.find? ·) (funext fun f => ?_)
      by_cases here : f.1 = key'
      · simp [here, same]
      · simp [here]
    simp [ entry?, store, List.find?_append, kept, same, other]

theorem get_put (c : Cache) (key key' : Digest) (name source vhdl : String) :
    (c.put key name source vhdl).get key' =
      if key' = key then .hit ⟨version, name, source, vhdl, key⟩ else c.get key' := by
  rw [get, put, entry_store]
  by_cases same : key' = key
  · simp [same]
  · simp only [same, if_false]
    rfl

theorem get_of_get_corrupt {c : Cache} {key key' : Digest} {u : CachedUnit}
    (h : (c.corrupt key).get key' = .hit u) : c.get key' = .hit u := by
  unfold corrupt at h
  split at h
  · rw [get, entry_store] at h
    by_cases same : key' = key
    · simp only [same, if_true] at h
      cases h
    · simp only [same, if_false] at h
      exact h
  · exact h

end Cache

namespace Build

/-! ## Emission -/

/-- A generator that emits the components of a build. -/
structure Serves (g : Vhdl.Generator) (b : Analysis × Int) : Prop where
  library : g.library = some b.1.design
  indent : g.indent = b.2

theorem Serves.emit {g : Vhdl.Generator} {b : Analysis × Int} (serves : Serves g b)
    (c : Component) : Serves (g.emit c).2 b := by
  obtain ⟨-, library, indent⟩ := g.emit_fresh c
  exact ⟨library.trans serves.library, indent.trans serves.indent⟩

/-- The VHDL of a component does not depend on what was emitted before. -/
theorem Serves.emit_eq {g g' : Vhdl.Generator} {b : Analysis × Int} (serves : Serves g b)
    (serves' : Serves g' b) (c : Component) : (g.emit c).1 = (g'.emit c).1 := by
  obtain ⟨same, -, -⟩ := g.emit_fresh c
  obtain ⟨same', -, -⟩ := g'.emit_fresh c
  rw [same, same', serves.library, serves'.library, serves.indent, serves'.indent]

/-- A build makes VHDL for a key. -/
def Makes (b : Analysis × Int) (key : Digest) (vhdl : String) : Prop :=
  ∃ c g, b.1.Keyed b.2 c key ∧ Serves g b ∧ (g.emit c).1.toOption = some vhdl

end Build

/-- What a cache gives out was made by one of some builds. -/
def Cache.Backed (builds : List (Build.Analysis × Int)) (c : Cache) : Prop :=
  ∀ key u, c.get key = .hit u → ∃ b ∈ builds, Build.Makes b key u.vhdl

theorem Cache.Backed.put {builds : List (Build.Analysis × Int)} {b : Build.Analysis × Int}
    {c : Cache} {key : Digest} {name source vhdl : String} (backed : c.Backed builds)
    (hb : b ∈ builds) (makes : Build.Makes b key vhdl) :
    (c.put key name source vhdl).Backed builds := by
  intro key' u hit
  rw [Cache.get_put] at hit
  split at hit
  · next same =>
    cases hit
    exact ⟨b, hb, same ▸ makes⟩
  · exact backed key' u hit

namespace Build

section Emission

variable {builds : List (Analysis × Int)} {b : Analysis × Int}

namespace Emitter

/-- The state of emission for a build. -/
structure Proper (builds : List (Analysis × Int)) (b : Analysis × Int) (s : Emitter) : Prop where
  serves : Serves s.generator b
  backed : ∀ c, s.cache? = some c → c.Backed builds

theorem Proper.emit {s : Emitter} (proper : s.Proper builds b) (hb : b ∈ builds) {c : Component}
    (source : String) {key : Digest} (keyed : b.1.Keyed b.2 c key) :
    (s.emit c source key).2.Proper builds b := by
  unfold Emitter.emit
  split
  · exact proper
  · have serves := proper.serves.emit c
    split
    · next e g failed =>
      rw [failed] at serves
      exact ⟨serves, proper.backed⟩
    · next vhdl g made =>
      rw [made] at serves
      refine ⟨serves, fun c' hc' => ?_⟩
      obtain ⟨cache, hcache, rfl⟩ := Option.map_eq_some_iff.mp hc'
      have makes : Makes b key vhdl := ⟨c, s.generator, keyed, proper.serves, by rw [made]; rfl⟩
      exact (proper.backed cache hcache).put hb makes

theorem Proper.emitAll {s : Emitter} (proper : s.Proper builds b) (hb : b ∈ builds)
    {jobs : List Job} (keyed : ∀ j ∈ jobs, b.1.Keyed b.2 j.component j.key) :
    (s.emitAll jobs).2.Proper builds b := by
  induction jobs generalizing s with
  | nil => exact proper
  | cons j rest ih =>
    have next := proper.emit hb j.source (keyed j List.mem_cons_self)
    exact ih next fun j' hj' => keyed j' (List.mem_cons_of_mem j hj')

end Emitter

/-- An output as if it had not come from the cache. -/
def Output.uncached (o : Output) : Output := { o with cached := false }

/-- The output of a job, given its VHDL. -/
def Emitter.Job.output (j : Emitter.Job) (vhdl : String) : Output :=
  ⟨j.component.name, j.source, vhdl, false, j.key⟩

/-- The outputs among what was emitted, as if they had not come from the cache. -/
def uncachedOutputs (es : List Emitted) : List Output :=
  (es.filterMap fun e => e.result.toOption).map Output.uncached

theorem uncachedOutputs_cons (e : Emitted) (es : List Emitted) :
    uncachedOutputs (e :: es) =
      (e.result.toOption.map Output.uncached).toList ++ uncachedOutputs es := by
  rw [uncachedOutputs, List.filterMap_cons]
  cases e.result.toOption <;> rfl

namespace Emitter

/-- A job has the output that its component has on its own, wherever it comes from. -/
theorem Proper.output {s : Emitter} (proper : s.Proper builds b) (apart : KeepsApart builds)
    (hb : b ∈ builds) (fits : ∀ b ∈ builds, 0 ≤ b.2 ∧ b.2 < 256)
    (complete : b.1.Complete b.2) {g : Vhdl.Generator} (serves : Serves g b) {j : Job}
    (keyed : b.1.Keyed b.2 j.component j.key) :
    ((s.emit j.component j.source j.key).1.result.toOption).map Output.uncached =
      (g.emit j.component).1.toOption.map j.output := by
  unfold Emitter.emit
  split
  · next u stored =>
    -- what is stored was made for the same key, so it is what the generator makes
    obtain ⟨cache, hcache, hit⟩ := Option.bind_eq_some_iff.mp stored
    have hit : cache.get j.key = .hit u := by
      split at hit
      · next found =>
        cases hit
        exact found
      · cases hit
      · cases hit
    obtain ⟨b', hb', c', g', keyed', serves', made⟩ := proper.backed cache hcache j.key u hit
    have same := apart.vhdl_eq hb hb' (fits b hb) (fits b' hb') keyed keyed' complete serves.library
      serves'.library serves.indent serves'.indent
    rw [same, made]
    rfl
  · have same := proper.serves.emit_eq serves j.component
    split
    · next e g' failed =>
      rw [← same, failed]
      rfl
    · next vhdl g' made =>
      rw [← same, made]
      rfl

/-- What is emitted for jobs is what their components have on their own. -/
theorem Proper.outputs {s : Emitter} (proper : s.Proper builds b) (apart : KeepsApart builds)
    (hb : b ∈ builds) (fits : ∀ b ∈ builds, 0 ≤ b.2 ∧ b.2 < 256)
    (complete : b.1.Complete b.2) {g : Vhdl.Generator} (serves : Serves g b)
    {jobs : List Job} (keyed : ∀ j ∈ jobs, b.1.Keyed b.2 j.component j.key) :
    uncachedOutputs (s.emitAll jobs).1 =
      jobs.filterMap fun j => (g.emit j.component).1.toOption.map j.output := by
  induction jobs generalizing s with
  | nil => rfl
  | cons j rest ih =>
    have first := proper.output apart hb fits complete serves (keyed j List.mem_cons_self)
    have next := proper.emit hb j.source (keyed j List.mem_cons_self)
    have more := ih next fun j' hj' => keyed j' (List.mem_cons_of_mem j hj')
    show uncachedOutputs ((s.emit j.component j.source j.key).1 ::
      ((s.emit j.component j.source j.key).2.emitAll rest).1) = _
    rw [uncachedOutputs_cons, first, more, List.filterMap_cons]
    cases (g.emit j.component).1.toOption <;> rfl

end Emitter

end Emission

/-! ## Builds -/

/-- The analysis and the indentation of a build. -/
def analysed (t : FileTree) (r : Request) : Analysis × Int :=
  (.ofSources (loadSources t r.roots) r.top r.keepText, r.indent)

theorem analysed_faithful (t : FileTree) (r : Request) : (analysed t r).1.Faithful :=
  Analysis.ofSources_faithful _ _ _

/-- Every job is one of a component that passed the check, with its key. -/
theorem Analysis.Faithful.jobs {a : Analysis} (faithful : a.Faithful) (indent : Int) :
    ∀ j ∈ a.jobs indent, a.Keyed indent j.component j.key := by
  intro j hj
  obtain ⟨name, passed, job⟩ := List.mem_filterMap.mp hj
  obtain ⟨c, found, job⟩ := Option.bind_eq_some_iff.mp job
  cases job
  obtain ⟨mem, rfl⟩ := Design.get?_eq_some_iff.mp found
  obtain ⟨key, keyed⟩ := faithful.keyed indent mem passed
  have found : (a.keys indent).find? (fun k => k.name == c.name) = some ⟨c.name, key⟩ := keyed.key
  simp only [found, Option.map_some, Option.getD_some]
  exact keyed

/-- The emitter that a build starts with. -/
def emitter (t : FileTree) (r : Request) (cache? : Option Cache) : Emitter :=
  ⟨cache?, { library := some (analysed t r).1.design, indent := r.indent }⟩

theorem emission_eq {t : FileTree} {r : Request} (chosen : r.indent ≠ 0) (cache? : Option Cache) :
    (run t cache? r).emission =
      ⟨((emitter t r cache?).emitAll ((analysed t r).1.jobs r.indent)).1,
        ((emitter t r cache?).emitAll ((analysed t r).1.jobs r.indent)).2.cache?⟩ := by
  simp only [run, Analysis.emit, chosen, if_false]
  rfl

/-! ## Histories -/

/-- What happens to a cache. -/
inductive Event where
  /-- A build of some files. -/
  | build (tree : FileTree) (request : Request)
  | drop
  /-- The entry of a key becomes unreadable. -/
  | corrupt (key : Digest)

/-- The cache after an event. -/
def Event.apply (c : Cache) : Event → Cache
  | build t r => ((run t (some c) r).emission.cache?).getD c
  | drop => c.drop
  | corrupt key => c.corrupt key

/-- What happened to a cache, from the first event on. -/
abbrev History := List Event

namespace History

/-- The cache after a history, which starts with an empty one. -/
def cache (h : History) : Cache := h.foldl Event.apply {}

/-- The builds of a history. -/
def builds (h : History) : List (Analysis × Int) :=
  h.filterMap fun e => match e with
    | .build t r => some (analysed t r)
    | .drop | .corrupt _ => none

end History

/-- An event keeps a cache backed by builds, its own among them. -/
theorem Event.apply_backed {builds : List (Analysis × Int)} {c : Cache} (backed : c.Backed builds)
    {e : Event} (known : ∀ t r, e = .build t r → analysed t r ∈ builds ∧ r.indent ≠ 0) :
    (e.apply c).Backed builds := by
  cases e with
  | build t r =>
    obtain ⟨hb, chosen⟩ := known t r rfl
    have start : (emitter t r (some c)).Proper builds (analysed t r) := by
      refine ⟨⟨rfl, rfl⟩, fun c' hc' => ?_⟩
      cases hc'
      exact backed
    have proper := start.emitAll hb ((analysed_faithful t r).jobs r.indent)
    rw [Event.apply, emission_eq chosen]
    cases after : ((emitter t r (some c)).emitAll ((analysed t r).1.jobs r.indent)).2.cache? with
    | none => exact backed
    | some c' => exact proper.backed c' after
  | drop =>
    intro key u hit
    cases hit
  | corrupt key => exact fun key' u hit => backed key' u (Cache.get_of_get_corrupt hit)

/-- A cache is backed by the builds of its history. -/
theorem History.cache_backed {h : History} {builds : List (Analysis × Int)}
    (known : ∀ b ∈ h.builds, b ∈ builds) (chosen : ∀ b ∈ h.builds, b.2 ≠ 0) :
    h.cache.Backed builds := by
  have fold : ∀ c : Cache, c.Backed builds → Cache.Backed builds (h.foldl Event.apply c) := by
    induction h with
    | nil => exact fun _ backed => backed
    | cons e rest ih =>
      intro c backed
      have later : ∀ b ∈ History.builds rest, b ∈ History.builds (e :: rest) := fun b hb =>
        ((List.sublist_cons_self e rest).filterMap _).subset hb
      refine ih (fun b hb => known b (later b hb)) (fun b hb => chosen b (later b hb)) _ ?_
      refine Event.apply_backed backed ?_
      rintro t r rfl
      have own : analysed t r ∈ History.builds (.build t r :: rest) := List.mem_cons_self
      exact ⟨known _ own, chosen _ own⟩
  refine fold {} fun key u hit => ?_
  cases hit

/-- A build whose top-level component strands no user has the same outputs with the cache that any
history has left as without a cache, as far as the digest keeps apart what is digested. -/
theorem outputs_transparent (h : History) (t : FileTree) (r : Request)
    (widths : ∀ b ∈ History.builds (h ++ [.build t r]), 1 ≤ b.2 ∧ b.2 ≤ 16)
    (apart : KeepsApart (History.builds (h ++ [.build t r])))
    (calm : ¬(run t none r).analysis.design.Strands r.top) :
    (run t (some h.cache) r).outputs.map Output.uncached =
      (run t none r).outputs.map Output.uncached := by
  have own : analysed t r ∈ History.builds (h ++ [.build t r]) := by
    simp [History.builds]
  have chosen : r.indent ≠ 0 := by
    have : 1 ≤ r.indent := (widths _ own).1
    omega
  have fits : ∀ b ∈ History.builds (h ++ [.build t r]), 0 ≤ b.2 ∧ b.2 < 256 := by
    intro b hb
    have := widths b hb
    omega
  have before : ∀ b ∈ h.builds, b ∈ History.builds (h ++ [.build t r]) := by
    intro b hb
    simp only [History.builds, List.filterMap_append]
    exact List.mem_append_left _ hb
  have backed : h.cache.Backed (History.builds (h ++ [.build t r])) := by
    refine History.cache_backed before fun b hb => ?_
    have := widths b (before b hb)
    omega
  have complete : (analysed t r).1.Complete r.indent :=
    ((analysed_faithful t r).complete_iff r.indent).mpr calm
  -- either way the outputs are those that the components have on their own
  have outputs : ∀ cache? : Option Cache,
      (∀ c, cache? = some c → c.Backed (History.builds (h ++ [.build t r]))) →
      (run t cache? r).outputs.map Output.uncached =
        ((analysed t r).1.jobs r.indent).filterMap fun j =>
          ((emitter t r none).generator.emit j.component).1.toOption.map j.output := by
    intro cache? backed
    have start : (emitter t r cache?).Proper (History.builds (h ++ [.build t r])) (analysed t r) :=
      ⟨⟨rfl, rfl⟩, backed⟩
    have serves : Serves (emitter t r none).generator (analysed t r) := ⟨rfl, rfl⟩
    have emitted := start.outputs apart own fits complete serves
      ((analysed_faithful t r).jobs r.indent)
    rw [Run.outputs, emission_eq chosen]
    exact emitted
  rw [outputs (some h.cache) fun c hc => by cases hc; exact backed, outputs none (by simp)]

/-! ## A register and its user -/

/-- A register with one generic. -/
def registerText (generic : String) : Bytes :=
  Bytes.ofString ("component R\x7bint " ++ generic ++ ";\x7d")

/-- A component with an instance of the register. -/
def userText : Bytes := Bytes.ofString "component T\x7barch\x7bR r=new R();\x7d\x7d"

/-- Both in a file each. -/
def registerTree (generic : String) : FileTree :=
  ⟨[], [(["R"], .file (registerText generic)), (["T"], .file userText)]⟩

/-- A build of both. -/
def registerRequest (top : String) : Request := { roots := ["R", "T"], top, indent := 4 }

/-- The files of such a build. -/
def registerFiles (generic : String) : FileSet :=
  ⟨[⟨0, "R", registerText generic, 0⟩, ⟨1, "T", userText, 0⟩]⟩

/-- The user as it is read. -/
def userComponent : Component where
  name := "T"
  nameSpan := ⟨1, 10, 11⟩
  span := ⟨1, 0, 31⟩
  file := 1
  items := [.arch ⟨⟨1, 12, 30⟩, "implementation", .zero,
    [.inst ⟨1, 17, 29⟩ ⟨"r", ⟨1, 19, 20⟩, "R", ⟨1, 17, 18⟩, []⟩]⟩]
  widths := []

/-- The register as it is read. -/
def registerComponent (generic : String) : Component where
  name := "R"
  nameSpan := ⟨0, 10, 11⟩
  span := ⟨0, 0, 19⟩
  file := 0
  items := [.generic ⟨0, 12, 18⟩ ⟨.generic, generic, ⟨0, 16, 17⟩, .int, .scalar, ⟨0, 12, 17⟩⟩]
  widths := []

/-- The two components, registered. -/
def registered (generic : String) : Registration where
  design := ⟨[registerComponent generic, userComponent], by
    simp [registerComponent, userComponent]⟩
  origins := [("R", ⟨0, "R", 0, 0, 19, "R"⟩), ("T", ⟨1, "T", 0, 0, 31, "T"⟩)]

theorem files_register {generic : String} (h : generic = "W" ∨ generic = "V") :
    (loadSources (registerTree generic) ["R", "T"]).files = registerFiles generic := by
  rcases h with rfl | rfl
  · cbv
  · cbv

theorem Registration.ext_parts {r s : Registration}
    (h : (r.design, r.origins, r.failures, r.duplicates) =
      (s.design, s.origins, s.failures, s.duplicates)) : r = s := by
  cases r
  cases s
  cases h
  rfl

theorem ofEntries_register {generic : String} (h : generic = "W" ∨ generic = "V") :
    Registration.ofEntries (Analysis.entries (Analysis.chunksOf (registerFiles generic))
      ((Analysis.chunksOf (registerFiles generic)).map
        (Analysis.parseChunk (registerFiles generic) false))) = registered generic := by
  apply Registration.ext_parts
  rcases h with rfl | rfl
  · decide +kernel
  · decide +kernel

/-- What a build makes of the two files. -/
theorem analysed_register {generic : String} (h : generic = "W" ∨ generic = "V") (top : String) :
    (analysed (registerTree generic) (registerRequest top)).1.sources.files =
        registerFiles generic ∧
      (analysed (registerTree generic) (registerRequest top)).1.registration =
        registered generic := by
  have files := files_register h
  refine ⟨files, ?_⟩
  rw [← ofEntries_register h, ← files]
  rfl

theorem design_register {generic : String} (h : generic = "W" ∨ generic = "V") (top : String) :
    (analysed (registerTree generic) (registerRequest top)).1.design =
      (registered generic).design := congrArg Registration.design (analysed_register h top).2

theorem contentMessage?_register {generic : String} (h : generic = "W" ∨ generic = "V")
    (top : String) :
    (analysed (registerTree generic) (registerRequest top)).1.contentMessage? 4 "R" =
        some (Key.contentBytes (registerText generic) 4) ∧
      (analysed (registerTree generic) (registerRequest top)).1.contentMessage? 4 "T" =
        some (Key.contentBytes userText 4) := by
  obtain ⟨files, registration⟩ := analysed_register h top
  simp only [Analysis.contentMessage?, Analysis.chunk?, Analysis.chunkText, files, registration]
  rcases h with rfl | rfl
  · decide +kernel
  · decide +kernel

theorem depNames_register {generic : String} (h : generic = "W" ∨ generic = "V") :
    (registered generic).design.depNames "R" = [] ∧
      (registered generic).design.depNames "T" = ["R"] := by
  rcases h with rfl | rfl
  · exact ⟨by cbv, by cbv⟩
  · exact ⟨by cbv, by cbv⟩

/-- The key of the register. -/
def registerKey : Digest := Key.combine (Key.content (registerText "W") 4) []

/-- Without a top-level component both pass the check. -/
theorem order_untopped {generic : String} (h : generic = "W" ∨ generic = "V") :
    (analysed (registerTree generic) (registerRequest "")).1.verdict.order = ["R", "T"] := by
  rw [(analysed_faithful _ _).verdict, design_register h]
  show ((registered generic).design.check "").order = ["R", "T"]
  rcases h with rfl | rfl
  · cbv
  · cbv

/-- The byte strings that are digested where no top-level component is named. -/
theorem messages_untopped {generic : String} (h : generic = "W" ∨ generic = "V") :
    (analysed (registerTree generic) (registerRequest "")).1.contentMessages 4 =
        [Key.contentBytes (registerText generic) 4, Key.contentBytes userText 4] ∧
      (analysed (registerTree generic) (registerRequest "")).1.keyMessages 4 =
        [Key.combinedBytes (Key.content (registerText generic) 4) [],
          Key.combinedBytes (Key.content userText 4)
            [⟨"R", Key.combine (Key.content (registerText generic) 4) []⟩]] := by
  have faithful := analysed_faithful (registerTree generic) (registerRequest "")
  have design := design_register h ""
  obtain ⟨register, user⟩ := contentMessage?_register h ""
  obtain ⟨none, one⟩ := depNames_register h
  have order := order_untopped h
  have registerMessage :
      (analysed (registerTree generic) (registerRequest "")).1.keyMessage? 4 "R" =
        some (Key.combinedBytes (Key.content (registerText generic) 4) []) := by
    rw [Analysis.keyMessage?, register, Analysis.depKeys, design, none]
    rfl
  have dep : (analysed (registerTree generic) (registerRequest "")).1.key? 4 "R" =
      some ⟨"R", Key.combine (Key.content (registerText generic) 4) []⟩ := by
    rw [Analysis.key?_eq faithful 4 (by simp [order]), registerMessage]
    rfl
  have userMessage : (analysed (registerTree generic) (registerRequest "")).1.keyMessage? 4 "T" =
      some (Key.combinedBytes (Key.content userText 4)
        [⟨"R", Key.combine (Key.content (registerText generic) 4) []⟩]) := by
    rw [Analysis.keyMessage?, user, Analysis.depKeys, design, one, List.filterMap_cons_some dep]
    rfl
  constructor
  · rw [Analysis.contentMessages, order, List.filterMap_cons_some register,
      List.filterMap_cons_some user, List.filterMap_nil]
  · rw [Analysis.keyMessages, order, List.filterMap_cons_some registerMessage,
      List.filterMap_cons_some userMessage, List.filterMap_nil]

theorem messages_register :
    (analysed (registerTree "W") (registerRequest "")).1.contentMessages 4 =
        [Key.contentBytes (registerText "W") 4, Key.contentBytes userText 4] ∧
      (analysed (registerTree "W") (registerRequest "")).1.keyMessages 4 =
        [Key.combinedBytes (Key.content (registerText "W") 4) [],
          Key.combinedBytes (Key.content userText 4) [⟨"R", registerKey⟩]] :=
  messages_untopped (.inl rfl)

/-! The digests of the register and its user, and the keys that are made of them. -/

def registerContent : Digest :=
  ⟨[0x35, 0x4f, 0xe8, 0xe7, 0x14, 0x71, 0xc8, 0xab, 0xba, 0x4e, 0x82, 0x19, 0x94, 0x2e, 0xf6, 0x58,
    0xb8, 0xd8, 0x9e, 0xe1, 0xbd, 0x08, 0xf9, 0x37, 0x89, 0x16, 0x88, 0xa4, 0xfd, 0x18, 0x8f, 0x2e],
    rfl⟩

def userContent : Digest :=
  ⟨[0x65, 0xa5, 0x21, 0x41, 0x4f, 0xd5, 0x0d, 0x36, 0xca, 0xa2, 0x6f, 0x57, 0x4f, 0xfb, 0x5d, 0xb9,
    0x27, 0x86, 0x15, 0x41, 0xe9, 0x41, 0x81, 0x88, 0xc4, 0x34, 0x77, 0xfc, 0x88, 0x6f, 0xa2, 0xf4],
    rfl⟩

def registerDigest : Digest :=
  ⟨[0x1d, 0x87, 0x04, 0xbd, 0x39, 0xe7, 0xab, 0x4b, 0x85, 0x1b, 0x95, 0xb0, 0x37, 0x7e, 0xdd, 0x77,
    0x0c, 0xe1, 0xe2, 0x7a, 0x5e, 0xd2, 0x2c, 0x19, 0x26, 0x3e, 0xc5, 0x30, 0x27, 0xa2, 0xc0, 0xfa],
    rfl⟩

def userDigest : Digest :=
  ⟨[0xe7, 0xfb, 0x3c, 0x58, 0xd6, 0x53, 0xd1, 0x5b, 0x75, 0x93, 0x6a, 0xa9, 0x1c, 0x6f, 0x82, 0x99,
    0x57, 0xf0, 0xfc, 0xf8, 0xe3, 0xfe, 0xb5, 0xf6, 0x10, 0x76, 0xda, 0xdd, 0x20, 0x58, 0xcf, 0x32],
    rfl⟩

theorem digests_register :
    Key.content (registerText "W") 4 = registerContent ∧ Key.content userText 4 = userContent ∧
      Key.combine registerContent [] = registerDigest ∧
        Key.combine userContent [⟨"R", registerDigest⟩] = userDigest :=
  ⟨by decide +kernel, by decide +kernel, by decide +kernel, by decide +kernel⟩

theorem injOn_of_ne {α β : Type} {f : α → β} {a b : α} (h : f a ≠ f b) {s : Set α}
    (members : ∀ m ∈ s, m ∈ [a, b]) : Set.InjOn f s := by
  intro m hm m' hm' same
  have hm := members m hm
  have hm' := members m' hm'
  simp only [List.mem_cons, List.not_mem_nil, or_false] at hm hm'
  rcases hm with rfl | rfl <;> rcases hm' with rfl | rfl
  · rfl
  · exact absurd same h
  · exact absurd same.symm h
  · rfl

/-- The two components built again, after the entry of the register was spoilt. -/
theorem outputs_transparent_register :
    (run (registerTree "W") (some (History.cache
        [.build (registerTree "W") (registerRequest ""), .corrupt registerKey]))
        (registerRequest "")).outputs.map Output.uncached =
      (run (registerTree "W") none (registerRequest "")).outputs.map Output.uncached := by
  obtain ⟨contents, keys⟩ := messages_register
  have same : ∀ b ∈ History.builds ([.build (registerTree "W") (registerRequest ""),
      .corrupt registerKey] ++ [.build (registerTree "W") (registerRequest "")]),
      b = analysed (registerTree "W") (registerRequest "") := by
    intro b hb
    have hb : b ∈ [analysed (registerTree "W") (registerRequest ""),
      analysed (registerTree "W") (registerRequest "")] := hb
    simpa using hb
  obtain ⟨content, content', key, key'⟩ := digests_register
  have contentsApart : Digest.ofBytes (Key.contentBytes (registerText "W") 4) ≠
      Digest.ofBytes (Key.contentBytes userText 4) := by
    show Key.content (registerText "W") 4 ≠ Key.content userText 4
    rw [content, content']
    decide
  have keysApart : Digest.ofBytes (Key.combinedBytes (Key.content (registerText "W") 4) []) ≠
      Digest.ofBytes (Key.combinedBytes (Key.content userText 4) [⟨"R", registerKey⟩]) := by
    show Key.combine (Key.content (registerText "W") 4) [] ≠
      Key.combine (Key.content userText 4) [⟨"R", Key.combine (Key.content (registerText "W") 4) []⟩]
    rw [content, content', key, key']
    decide
  refine outputs_transparent _ _ _ ?_ ⟨injOn_of_ne contentsApart ?_, injOn_of_ne keysApart ?_⟩ ?_
  · intro b hb
    rw [same b hb]
    decide
  · rintro m ⟨b, hb, hm⟩
    rwa [same b hb, show (analysed _ (registerRequest "")).2 = 4 from rfl, contents] at hm
  · rintro m ⟨b, hb, hm⟩
    rwa [same b hb, show (analysed _ (registerRequest "")).2 = 4 from rfl, keys] at hm
  · rintro ⟨⟨named, -⟩, -⟩
    exact named rfl

/-! ## The register as the top-level component -/

/-- The key of the user where the register is the top-level component: the register is missing. -/
def userKey : Digest := Key.combine (Key.content userText 4) []

theorem order_register {generic : String} (h : generic = "W" ∨ generic = "V") :
    (analysed (registerTree generic) (registerRequest "R")).1.verdict.order = ["T"] := by
  rw [(analysed_faithful _ _).verdict, design_register h]
  show ((registered generic).design.check "R").order = ["T"]
  rcases h with rfl | rfl
  · cbv
  · cbv

theorem key?_register {generic : String} (h : generic = "W" ∨ generic = "V") :
    (analysed (registerTree generic) (registerRequest "R")).1.key? 4 "T" =
      some ⟨"T", userKey⟩ := by
  have order := order_register h
  have keyless : (analysed (registerTree generic) (registerRequest "R")).1.key? 4 "R" = none := by
    by_contra found
    obtain ⟨k, found⟩ := Option.ne_none_iff_exists'.mp found
    have passed := Analysis.key?_mem_order found
    simp [order] at passed
  have deps : (analysed (registerTree generic) (registerRequest "R")).1.depKeys 4 "T" = [] := by
    rw [Analysis.depKeys, design_register h, (depNames_register h).2,
      List.filterMap_cons_none keyless]
    rfl
  rw [Analysis.key?_eq (analysed_faithful _ _) 4 (by simp [order]), Analysis.keyMessage?,
    (contentMessage?_register h "R").2, deps]
  rfl

theorem jobs_register {generic : String} (h : generic = "W" ∨ generic = "V") :
    (analysed (registerTree generic) (registerRequest "R")).1.jobs 4 =
      [⟨userComponent, "T", userKey⟩] := by
  have key : ((analysed (registerTree generic) (registerRequest "R")).1.keys 4).find?
      (fun k => k.name == "T") = some ⟨"T", userKey⟩ := key?_register h
  have found : (registered generic).design.get? "T" = some userComponent := by
    rcases h with rfl | rfl
    · rfl
    · rfl
  simp only [Analysis.jobs, order_register h, design_register h, Analysis.chunk?,
    (analysed_register h "R").2, List.filterMap_cons, List.filterMap_nil, found, key]
  rfl

/-- The VHDL of the user. -/
def userVhdl (generic : String) : String :=
  "library ieee;\nuse ieee.std_logic_1164.all;\nuse ieee.numeric_std.all;\n\nentity T is\n" ++
  "end entity;\n\narchitecture implementation of T is\n    component R is\n        generic (\n" ++
  "            " ++ generic ++ " : integer\n        );\n    end component;\nbegin\n    r : R;\n" ++
  "end architecture;\n"

theorem emit_register {generic : String} (h : generic = "W" ∨ generic = "V") :
    (({ library := some (registered generic).design, indent := 4 } : Vhdl.Generator).emit
      userComponent).1 = .ok (userVhdl generic) := by
  rcases h with rfl | rfl
  · decide +kernel
  · decide +kernel

/-- The emission of such a build: one job. -/
theorem emission_register {generic : String} (h : generic = "W" ∨ generic = "V")
    (cache? : Option Cache) :
    (run (registerTree generic) cache? (registerRequest "R")).emission =
      let s : Emitter := ⟨cache?, { library := some (registered generic).design, indent := 4 }⟩
      ⟨(s.emitAll [⟨userComponent, "T", userKey⟩]).1,
        (s.emitAll [⟨userComponent, "T", userKey⟩]).2.cache?⟩ := by
  have emitter : emitter (registerTree generic) (registerRequest "R") cache? =
      ⟨cache?, { library := some (registered generic).design, indent := 4 }⟩ := by
    rw [Build.emitter, design_register h]
    rfl
  rw [emission_eq (by decide), emitter, ← jobs_register h]
  rfl

/-- The user is made anew where the cache has nothing for its key. -/
theorem made_register {generic : String} (h : generic = "W" ∨ generic = "V")
    (cache? : Option Cache) (missing : ∀ c, cache? = some c → c.get userKey = .miss) :
    (run (registerTree generic) cache? (registerRequest "R")).outputs =
        [⟨"T", "T", userVhdl generic, false, userKey⟩] ∧
      (run (registerTree generic) cache? (registerRequest "R")).emission.cache? =
        cache?.map (·.put userKey "T" "T" (userVhdl generic)) := by
  have none : Emitter.stored? ⟨cache?, { library := some (registered generic).design, indent := 4 }⟩
      userKey = none := by
    cases cache? with
    | none => rfl
    | some c => simp only [Emitter.stored?, Option.bind_some, missing c rfl]
  have made := emit_register h
  rw [Run.outputs, emission_register h]
  simp only [Emitter.emitAll, Emitter.emit, none]
  revert made
  rcases ({ library := some (registered generic).design, indent := 4 } : Vhdl.Generator).emit
    userComponent with ⟨_ | _, _⟩ <;> intro made
  · cases made
  · cases made
    exact ⟨rfl, rfl⟩

/-- A change to the generic of the register does not get through to its user. -/
theorem stale_output :
    (run (registerTree "V") (some (History.cache [.build (registerTree "W") (registerRequest "R")]))
        (registerRequest "R")).outputs.map Output.uncached ≠
      (run (registerTree "V") none (registerRequest "R")).outputs.map Output.uncached := by
  have first := (made_register (.inl rfl) (some {}) fun c hc => by cases hc; rfl).2
  have fresh := (made_register (.inr rfl) none fun c hc => by cases hc).1
  have cache : History.cache [.build (registerTree "W") (registerRequest "R")] =
      ({} : Cache).put userKey "T" "T" (userVhdl "W") := by
    simp only [History.cache, List.foldl_cons, List.foldl_nil, Event.apply, first]
    rfl
  have hit : (({} : Cache).put userKey "T" "T" (userVhdl "W")).get userKey =
      .hit ⟨Cache.version, "T", "T", userVhdl "W", userKey⟩ := by
    rw [Cache.get_put, if_pos rfl]
  rw [cache, fresh, Run.outputs, emission_register (.inr rfl)]
  simp only [Emitter.emitAll, Emitter.emit, Emitter.stored?, Option.bind_some, hit]
  intro same
  have vhdl : userVhdl "W" = userVhdl "V" := congrArg Output.vhdl (List.cons.inj same).1
  have other : userVhdl "W" ≠ userVhdl "V" := by decide +kernel
  exact other vhdl

end Build
end CircuitCompiler
