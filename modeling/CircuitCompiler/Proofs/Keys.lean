import CircuitCompiler.Build.Emission
import CircuitCompiler.Proofs.Verdict
import CircuitCompiler.Proofs.Wiring
import Mathlib

/-!
# What a key stands for

The key of a component is a digest of its text, the indentation and the keys of the components it
instantiates. As far as the digest keeps byte strings apart, equal keys mean that all of this is
equal, and with it the VHDL.

* `Key.contentBytes_inj`, `Key.dependencies_eq`: the byte strings determine what they are made of;
* `Build.Analysis.key?_eq`: the key of a component, by the keys of what it instantiates;
* `Build.Analysis.Faithful.complete_iff`: all keys are made of the keys of all that is instantiated,
  unless the top-level component strands a user;
* `Build.KeepsApart.vhdl_eq`: components with the same key have the same VHDL where keys are made so.
-/

namespace CircuitCompiler

/-! ## Byte strings -/

namespace Key

theorem digest_ext {d d' : Digest} (h : d.bytes = d'.bytes) : d = d' := by
  cases d
  cases d'
  simpa using h

/-- Content strings determine the text, and the indentation where it fits. -/
theorem contentBytes_inj {text text' : Bytes} {indent indent' : Int}
    (h : contentBytes text indent = contentBytes text' indent')
    (fits : 0 ≤ indent ∧ indent < 256) (fits' : 0 ≤ indent' ∧ indent' < 256) :
    text = text' ∧ indent = indent' := by
  simp only [contentBytes, Digest.littleEndian16, List.cons_append, List.nil_append,
    List.cons.injEq, true_and] at h
  obtain ⟨low, -, text⟩ := h
  refine ⟨text, ?_⟩
  have low := congrArg UInt8.toNat low
  simp only [UInt8.toNat_ofNat'] at low
  omega

theorem combinedBytes_inj {content content' : Digest} {ds ds' : List Dependency}
    (h : combinedBytes content ds = combinedBytes content' ds') :
    content = content' ∧
      (sortDependencies ds).flatMap dependencyBytes =
        (sortDependencies ds').flatMap dependencyBytes := by
  obtain ⟨first, rest⟩ := List.append_inj h (content.size.trans content'.size.symm)
  exact ⟨digest_ext first, rest⟩

/-- Dependencies that are in the order of their names stay as they are. -/
theorem sortDependencies_eq {ds : List Dependency}
    (sorted : (ds.map (·.name)).Pairwise (· < ·)) : sortDependencies ds = ds := by
  have nodup : (ds.map (·.name)).Nodup := by
    refine sorted.imp ?_
    rintro a _ less rfl
    exact String.lt_irrefl a less
  rw [sortDependencies, if_pos (.inr nodup)]
  refine List.mergeSort_of_pairwise ((List.pairwise_map.mp sorted).imp fun less => ?_)
  simp only [nameLe, decide_eq_true_eq]
  exact String.not_lt.mp (String.lt_asymm less)

theorem length_dependencyBytes (d : Dependency) :
    (dependencyBytes d).length = 36 + (Bytes.ofString d.name).length := by
  simp only [dependencyBytes, List.length_append, d.key.size]
  simp only [Digest.littleEndian32, List.length_cons, List.length_nil]
  omega

/-- The length of the byte string of dependencies, by their names. -/
def weight (names : List String) : Nat :=
  (names.map fun name => 36 + (Bytes.ofString name).length).sum

theorem length_flatMap (ds : List Dependency) :
    (ds.flatMap dependencyBytes).length = weight (ds.map (·.name)) := by
  rw [List.length_flatMap, weight, List.map_map]
  exact congrArg List.sum (List.map_congr_left fun d _ => length_dependencyBytes d)

/-- Names of which some are left out make a shorter byte string. -/
theorem weight_sublist {names names' : List String} (h : names'.Sublist names) :
    weight names' + names.length ≤ weight names + names'.length := by
  induction h with
  | slnil => exact Nat.le_refl _
  | cons name _ ih =>
    simp only [weight, List.map_cons, List.sum_cons, List.length_cons] at ih ⊢
    omega
  | cons_cons name _ ih =>
    simp only [weight, List.map_cons, List.sum_cons, List.length_cons] at ih ⊢
    omega

/-- The byte string of dependencies determines their keys, and that none is left out. -/
theorem dependencies_eq {ds ds' : List Dependency}
    (names : (ds'.map (·.name)).Sublist (ds.map (·.name)))
    (h : ds'.flatMap dependencyBytes = ds.flatMap dependencyBytes) : ds' = ds := by
  have size := congrArg List.length h
  rw [length_flatMap, length_flatMap] at size
  have shorter := weight_sublist names
  have same := names.eq_of_length_le (by omega)
  clear names size shorter
  -- the names are the same, so the keys stand at the same places
  induction ds generalizing ds' with
  | nil => exact List.map_eq_nil_iff.mp same
  | cons d rest ih =>
    obtain ⟨d', rest', rfl, name, more⟩ := List.map_eq_cons_iff.mp same
    rw [List.flatMap_cons, List.flatMap_cons] at h
    obtain ⟨first, behind⟩ := List.append_inj h
      (by rw [length_dependencyBytes, length_dependencyBytes, name])
    rw [dependencyBytes, dependencyBytes, name] at first
    have key := digest_ext (List.append_cancel_left first)
    rw [ih behind more]
    cases d
    cases d'
    cases name
    cases key
    rfl

end Key

/-! ## Where components come from -/

namespace Build

/-- A chunk of the files was read as a component. -/
def ReadFrom (files : FileSet) (keepText : Bool) (chunk : Chunk) (c : Component) : Prop :=
  ∃ f, files.get? chunk.file = some f ∧ chunk.parse f keepText = .ok c

theorem readFrom_of_parseChunk {files : FileSet} {keepText : Bool} {chunk : Chunk} {c : Component}
    (h : Analysis.parseChunk files keepText chunk = .ok c) : ReadFrom files keepText chunk c := by
  unfold Analysis.parseChunk at h
  split at h
  · next f found => exact ⟨f, found, h⟩
  · cases h

namespace Registration

variable {files : FileSet} {keepText : Bool}

/-- Every registered component has the chunk that it was read from. -/
structure Traced (files : FileSet) (keepText : Bool) (s : Registration) : Prop where
  names : s.origins.map (·.1) = s.design.names
  reads : ∀ c ∈ s.design.components, ∃ chunk,
    (c.name, chunk) ∈ s.origins ∧ ReadFrom files keepText chunk c

theorem Traced.add {s : Registration} {e : Entry} (traced : Traced files keepText s)
    (read : ∀ c, e.result = .ok c → ReadFrom files keepText e.chunk c) :
    Traced files keepText (s.add e) := by
  unfold Registration.add
  split
  · exact ⟨traced.names, traced.reads⟩
  · next c ok =>
    split
    · next d added =>
      have comps := Design.components_of_add? added
      refine ⟨?_, fun c' hc' => ?_⟩
      · simp only [List.map_append, List.map_cons, List.map_nil, traced.names, Design.names, comps]
      · simp only [comps, List.mem_append, List.mem_singleton] at hc'
        rcases hc' with old | rfl
        · obtain ⟨chunk, mem, from_⟩ := traced.reads c' old
          exact ⟨chunk, List.mem_append_left _ mem, from_⟩
        · exact ⟨e.chunk, List.mem_append_right _ List.mem_cons_self, read c' ok⟩
    · exact ⟨traced.names, traced.reads⟩

theorem traced_ofEntries {es : List Entry}
    (read : ∀ e ∈ es, ∀ c, e.result = .ok c → ReadFrom files keepText e.chunk c) :
    Traced files keepText (ofEntries es) := by
  have fold : ∀ s, Traced files keepText s → Traced files keepText (es.foldl add s) := by
    induction es with
    | nil => exact fun _ traced => traced
    | cons e rest ih =>
      intro s traced
      exact ih (fun e' he' => read e' (List.mem_cons_of_mem e he')) _
        (traced.add (read e List.mem_cons_self))
  exact fold {} ⟨rfl, by simp⟩

end Registration

namespace Analysis

theorem read_of_mem_entries {files : FileSet} {keepText : Bool} {chunks : List Chunk}
    {e : Registration.Entry}
    (mem : e ∈ entries chunks (chunks.map (parseChunk files keepText))) {c : Component}
    (ok : e.result = .ok c) : ReadFrom files keepText e.chunk c := by
  simp only [entries, List.mem_mapIdx] at mem
  obtain ⟨i, inside, rfl⟩ := mem
  simp only [List.getElem_zip, List.getElem_map] at ok ⊢
  exact readFrom_of_parseChunk ok

/-- The registered components come from the files, and the verdict is the one on them. -/
structure Faithful (a : Analysis) : Prop where
  traced : ∃ keepText, a.registration.Traced a.sources.files keepText
  verdict : a.verdict = a.design.check a.top

theorem ofSources_faithful (sources : Sources) (top : String) (keepText : Bool) :
    (ofSources sources top keepText).Faithful where
  traced := ⟨keepText, Registration.traced_ofEntries fun _ mem _ ok => read_of_mem_entries mem ok⟩
  verdict := rfl

variable {a : Analysis}

/-- The text of a registered component. -/
def text? (a : Analysis) (name : String) : Option Bytes := (a.chunk? name).map a.chunkText

/-- The text of a registered component is that of the chunk that it was read from. -/
theorem Faithful.chunk (faithful : a.Faithful) {c : Component} (hc : c ∈ a.design.components) :
    ∃ chunk f keepText, a.chunk? c.name = some chunk ∧ a.chunkText chunk = chunk.text f ∧
      chunk.parse f keepText = .ok c := by
  obtain ⟨keepText, traced⟩ := faithful.traced
  obtain ⟨chunk, mem, f, file, parsed⟩ := traced.reads c hc
  refine ⟨chunk, f, keepText, ?_, ?_, parsed⟩
  · have nodup : (a.registration.origins.map (·.1)).Nodup := by
      rw [traced.names]
      exact a.registration.design.distinct
    obtain ⟨before, after, split⟩ := List.append_of_mem mem
    refine List.lookup_eq_some_iff.mpr ⟨before, after, split, fun p hp => ?_⟩
    rw [split, List.map_append, List.map_cons, List.nodup_append] at nodup
    have other := nodup.2.2 p.1 (List.mem_map_of_mem hp) c.name List.mem_cons_self
    simpa using other.symm
  · rw [chunkText, file]
    rfl

/-! ## Keys -/

/-- The key that is found for a component. -/
def key? (a : Analysis) (indent : Int) (name : String) : Option Dependency :=
  (a.keys indent).find? fun k => k.name == name

theorem addKey_eq (a : Analysis) (indent : Int) (keys : List Dependency) (name : String) :
    ∃ new, a.addKey indent keys name = keys ++ new ∧ ∀ k ∈ new, k.name = name := by
  unfold addKey
  split
  · exact ⟨[], by simp, by simp⟩
  · exact ⟨_, rfl, by simp⟩

/-- Keys of other components leave what is found for a component. -/
theorem find?_foldl_addKey (a : Analysis) (indent : Int) {names : List String} {name : String}
    (other : name ∉ names) (keys : List Dependency) :
    (names.foldl (a.addKey indent) keys).find? (fun k => k.name == name) =
      keys.find? fun k => k.name == name := by
  induction names generalizing keys with
  | nil => rfl
  | cons first rest ih =>
    rw [List.mem_cons, not_or] at other
    obtain ⟨new, added, named⟩ := a.addKey_eq indent keys first
    have none : new.find? (fun k => k.name == name) = none := by
      refine List.find?_eq_none.mpr fun k hk same => ?_
      rw [named k hk] at same
      exact other.1 (eq_of_beq same).symm
    rw [List.foldl_cons, ih other.2, added, List.find?_append, none, Option.or_none]

theorem key?_name {indent : Int} {name : String} {k : Dependency}
    (h : a.key? indent name = some k) : k.name = name := by
  simpa using List.find?_some h

theorem key?_mem_order {indent : Int} {name : String} {k : Dependency}
    (h : a.key? indent name = some k) : name ∈ a.verdict.order := by
  by_contra other
  rw [key?, keys, find?_foldl_addKey a indent other] at h
  cases h

/-- The keys of the components that a component instantiates, in the order of their names. -/
def depKeys (a : Analysis) (indent : Int) (name : String) : List Dependency :=
  (a.design.depNames name).filterMap (a.key? indent)

/-- The byte string that is digested for the content of a component. -/
def contentMessage? (a : Analysis) (indent : Int) (name : String) : Option Bytes :=
  (a.chunk? name).map fun c => Key.contentBytes (a.chunkText c) indent

theorem contentMessage?_eq (a : Analysis) (indent : Int) (name : String) :
    a.contentMessage? indent name =
      (a.text? name).map fun text => Key.contentBytes text indent := by
  rw [contentMessage?, text?, Option.map_map]
  rfl

/-- The byte string that is digested for the key of a component. -/
def keyMessage? (a : Analysis) (indent : Int) (name : String) : Option Bytes :=
  (a.contentMessage? indent name).map fun content =>
    Key.combinedBytes (Digest.ofBytes content) (a.depKeys indent name)

/-- The key of a component, by the keys of the components it instantiates. -/
theorem key?_eq (faithful : a.Faithful) (indent : Int) {name : String}
    (mem : name ∈ a.verdict.order) :
    a.key? indent name =
      (a.keyMessage? indent name).map fun message => ⟨name, Digest.ofBytes message⟩ := by
  obtain ⟨before, after, split⟩ := List.append_of_mem mem
  have nodup : a.verdict.order.Nodup := by
    rw [faithful.verdict]
    exact a.design.nodup_order a.top
  rw [split] at nodup
  obtain ⟨-, tail, apart⟩ := List.nodup_append.mp nodup
  have early : name ∉ before := fun h => apart name h name List.mem_cons_self rfl
  have late : name ∉ after := (List.nodup_cons.mp tail).1
  have keys : a.keys indent =
      (name :: after).foldl (a.addKey indent) (before.foldl (a.addKey indent) []) := by
    rw [Analysis.keys, split, List.foldl_append]
  -- what the component depends on has its key before the component, or none at all
  have deps : a.dependencyKeys (before.foldl (a.addKey indent) []) name =
      a.depKeys indent name := by
    refine List.filterMap_congr fun dep hdep => ?_
    obtain ⟨uses, known⟩ := Design.mem_depNames.mp hdep
    rw [faithful.verdict] at split
    rw [key?, keys, find?_foldl_addKey a indent (Design.not_mem_behind split uses known)]
  have none : (before.foldl (a.addKey indent) []).find? (fun k => k.name == name) = none :=
    find?_foldl_addKey a indent early []
  rw [key?, keys, List.foldl_cons, find?_foldl_addKey a indent late, addKey, keyMessage?,
    contentMessage?]
  cases a.chunk? name with
  | none => exact none
  | some c =>
    simp only [Option.map_some, List.find?_append, none, deps]
    simp [Key.combine, Key.content]

/-- Components without a key are left out. -/
theorem depKeys_names (a : Analysis) (indent : Int) (name : String) :
    ((a.depKeys indent name).map (·.name)).Sublist (a.design.depNames name) := by
  rw [depKeys]
  induction a.design.depNames name with
  | nil => exact .slnil
  | cons dep rest ih =>
    cases found : a.key? indent dep with
    | none =>
      rw [List.filterMap_cons_none found]
      exact ih.cons dep
    | some k =>
      rw [List.filterMap_cons_some found, List.map_cons, key?_name found]
      exact ih.cons_cons dep

theorem sort_depKeys (a : Analysis) (indent : Int) (name : String) :
    Key.sortDependencies (a.depKeys indent name) = a.depKeys indent name :=
  Key.sortDependencies_eq ((a.design.depNames_sorted name).sublist (a.depKeys_names indent name))

/-- The byte strings that are digested for the contents of components. -/
def contentMessages (a : Analysis) (indent : Int) : List Bytes :=
  a.verdict.order.filterMap (a.contentMessage? indent)

/-- The byte strings that are digested for the keys of components. -/
def keyMessages (a : Analysis) (indent : Int) : List Bytes :=
  a.verdict.order.filterMap (a.keyMessage? indent)

/-- A component that passed the check, and its key. -/
structure Keyed (a : Analysis) (indent : Int) (c : Component) (key : Digest) : Prop where
  faithful : a.Faithful
  mem : c ∈ a.design.components
  passed : c.name ∈ a.verdict.order
  key : a.key? indent c.name = some ⟨c.name, key⟩

/-- What the key of a component was made of. -/
theorem Keyed.messages {indent : Int} {c : Component} {key : Digest} (h : a.Keyed indent c key) :
    ∃ (chunk : Chunk) (f : SourceFile) (keepText : Bool), chunk.parse f keepText = .ok c ∧
      a.text? c.name = some (chunk.text f) ∧
      Key.contentBytes (chunk.text f) indent ∈ a.contentMessages indent ∧
      Key.combinedBytes (Key.content (chunk.text f) indent) (a.depKeys indent c.name) ∈
        a.keyMessages indent ∧
      key = Key.combine (Key.content (chunk.text f) indent) (a.depKeys indent c.name) := by
  obtain ⟨chunk, f, keepText, origin, text, parsed⟩ := h.faithful.chunk h.mem
  have text : a.text? c.name = some (chunk.text f) := by
    rw [text?, origin, ← text]
    rfl
  have content : a.contentMessage? indent c.name =
      some (Key.contentBytes (chunk.text f) indent) := by
    rw [contentMessage?_eq, text]
    rfl
  have message : a.keyMessage? indent c.name =
      some (Key.combinedBytes (Key.content (chunk.text f) indent) (a.depKeys indent c.name)) := by
    rw [keyMessage?, content]
    rfl
  refine ⟨chunk, f, keepText, parsed, text, List.mem_filterMap.mpr ⟨_, h.passed, content⟩,
    List.mem_filterMap.mpr ⟨_, h.passed, message⟩, ?_⟩
  have key := h.key
  rw [key?_eq h.faithful indent h.passed, message, Option.map_some, Option.some.injEq] at key
  exact (congrArg Dependency.key key).symm

/-- A component that passed the check has a key. -/
theorem Faithful.keyed (faithful : a.Faithful) (indent : Int) {c : Component}
    (mem : c ∈ a.design.components) (passed : c.name ∈ a.verdict.order) :
    ∃ key, a.Keyed indent c key := by
  obtain ⟨chunk, f, keepText, origin, -, -⟩ := faithful.chunk mem
  have key := key?_eq faithful indent passed
  rw [keyMessage?, contentMessage?, origin] at key
  exact ⟨_, faithful, mem, passed, key⟩

/-- Unless the top-level component strands a user, all that a component instantiates passed the
check. -/
theorem Faithful.dep_mem_order (faithful : a.Faithful) (calm : ¬a.design.Strands a.top)
    {name dep : String} (passed : name ∈ a.verdict.order) (uses : a.design.Instantiates name dep) :
    dep ∈ a.verdict.order := by
  obtain ⟨before, after, split⟩ := List.append_of_mem passed
  have early : dep ∈ before := by
    rw [faithful.verdict] at split
    exact Design.order_closed calm split uses
  exact split ▸ List.mem_append_left _ early

theorem mem_names_of_mem_order (faithful : a.Faithful) {name : String}
    (passed : name ∈ a.verdict.order) : name ∈ a.design.names := by
  rw [faithful.verdict] at passed
  exact (Design.mem_order_iff.mp passed).1

/-- The key of every component that passed the check is made of the keys of all components that it
instantiates. -/
def Complete (a : Analysis) (indent : Int) : Prop :=
  ∀ name ∈ a.verdict.order, (a.depKeys indent name).map (·.name) = a.design.depNames name

/-- Keys leave out a component exactly where the top-level component strands a user. -/
theorem Faithful.complete_iff (faithful : a.Faithful) (indent : Int) :
    a.Complete indent ↔ ¬a.design.Strands a.top := by
  constructor
  · intro complete strands
    obtain ⟨user, passed, uses, missing⟩ := strands.user
    rw [← faithful.verdict] at passed missing
    have known : a.top ∈ a.design.names := by
      obtain ⟨⟨-, -, c, hc, name, -⟩, -⟩ := strands
      exact name ▸ List.mem_map_of_mem hc
    -- a key for the top-level component would mean that it passed
    have dep : a.top ∈ (a.depKeys indent user).map (·.name) := by
      rw [complete user passed]
      exact Design.mem_depNames.mpr ⟨uses, known⟩
    obtain ⟨k, hk, named⟩ := List.mem_map.mp dep
    obtain ⟨top, -, found⟩ := List.mem_filterMap.mp hk
    rw [key?_name found] at named
    exact missing (named ▸ key?_mem_order found)
  · intro calm name passed
    have found : ∀ dep ∈ a.design.depNames name, ∃ k, a.key? indent dep = some k := by
      intro dep hdep
      obtain ⟨uses, known⟩ := Design.mem_depNames.mp hdep
      obtain ⟨c, hc, rfl⟩ := Design.exists_of_mem_names known
      obtain ⟨key, keyed⟩ := faithful.keyed indent hc (faithful.dep_mem_order calm passed uses)
      exact ⟨_, keyed.key⟩
    rw [depKeys]
    revert found
    induction a.design.depNames name with
    | nil => exact fun _ => rfl
    | cons dep rest ih =>
      intro found
      obtain ⟨k, hk⟩ := found dep List.mem_cons_self
      rw [List.filterMap_cons_some hk, List.map_cons, key?_name hk,
        ih fun dep' h => found dep' (List.mem_cons_of_mem dep h)]

end Analysis

/-! ## Equal keys -/

/-- The digest keeps the byte strings apart that are digested in some builds, each of which has an
indentation. -/
structure KeepsApart (builds : List (Analysis × Int)) : Prop where
  contents : Set.InjOn Digest.ofBytes {m | ∃ b ∈ builds, m ∈ b.1.contentMessages b.2}
  keys : Set.InjOn Digest.ofBytes {m | ∃ b ∈ builds, m ∈ b.1.keyMessages b.2}

/-- Components with the same key have the same text, the same indentation and the same keys of what
they instantiate. -/
theorem KeepsApart.of_key_eq {builds : List (Analysis × Int)} (apart : KeepsApart builds)
    {a a' : Analysis} {indent indent' : Int} (hb : (a, indent) ∈ builds)
    (hb' : (a', indent') ∈ builds) (fits : 0 ≤ indent ∧ indent < 256)
    (fits' : 0 ≤ indent' ∧ indent' < 256) {c c' : Component} {key : Digest}
    (keyed : a.Keyed indent c key) (keyed' : a'.Keyed indent' c' key) :
    a.text? c.name = a'.text? c'.name ∧ c.plain = c'.plain ∧ indent = indent' ∧
      (a.depKeys indent c.name).flatMap Key.dependencyBytes =
        (a'.depKeys indent' c'.name).flatMap Key.dependencyBytes := by
  obtain ⟨chunk, f, keepText, parsed, own, content, message, key⟩ := keyed.messages
  obtain ⟨chunk', f', keepText', parsed', own', content', message', key'⟩ := keyed'.messages
  have combined := apart.keys ⟨_, hb, message⟩ ⟨_, hb', message'⟩ (key.symm.trans key')
  obtain ⟨contents, deps⟩ := Key.combinedBytes_inj combined
  have contents := apart.contents ⟨_, hb, content⟩ ⟨_, hb', content'⟩ contents
  obtain ⟨text, indents⟩ := Key.contentBytes_inj contents fits fits'
  rw [a.sort_depKeys, a'.sort_depKeys] at deps
  refine ⟨?_, Chunk.plain_eq_of_text_eq parsed parsed' text, indents, deps⟩
  rw [own, own', text]

/-- A component that passed the check has instances of registered components only. -/
theorem Analysis.Keyed.mem_depNames_iff {a : Analysis} {indent : Int} {c : Component} {key : Digest}
    (keyed : a.Keyed indent c key) {dep : String} :
    dep ∈ a.design.depNames c.name ↔ ∃ i ∈ c.instances, i.type = dep := by
  rw [Design.mem_depNames]
  constructor
  · rintro ⟨⟨c', hc', name, uses⟩, -⟩
    rwa [List.inj_on_of_nodup_map a.design.distinct hc' keyed.mem name] at uses
  · intro uses
    have uses : a.design.Instantiates c.name dep := ⟨c, keyed.mem, rfl, uses⟩
    have passed := keyed.passed
    rw [keyed.faithful.verdict] at passed
    refine ⟨uses, ?_⟩
    by_contra unknown
    exact (Design.mem_order_iff.mp passed).2.1 (.unknownType uses unknown)

theorem types_of_plain_eq {c c' : Component} (same : c.plain = c'.plain) :
    c.instances.map (·.type) = c'.instances.map (·.type) := by
  have types : ∀ c : Component, c.plain.instances.map (·.type) = c.instances.map (·.type) := by
    intro c
    rw [Component.plain, Relocation.instances_component, List.map_map]
    rfl
  rw [← types, same, types]

/-- Components that passed the check and are the same up to places instantiate the same. -/
theorem depNames_eq_of_plain_eq {a a' : Analysis} {indent indent' : Int} {c c' : Component}
    {key key' : Digest} (keyed : a.Keyed indent c key) (keyed' : a'.Keyed indent' c' key')
    (same : c.plain = c'.plain) : a.design.depNames c.name = a'.design.depNames c'.name := by
  have irrefl : Std.Irrefl (fun a b : String => a < b) := ⟨String.lt_irrefl⟩
  refine List.Pairwise.eq_of_mem_iff (a.design.depNames_sorted _) (a'.design.depNames_sorted _) ?_
  intro dep
  rw [keyed.mem_depNames_iff, keyed'.mem_depNames_iff]
  simp only [← List.mem_map, types_of_plain_eq same]

/-- The key of a component that another one depends on. -/
theorem Analysis.Keyed.dep {a : Analysis} {indent : Int} {c : Component} {key : Digest}
    (keyed : a.Keyed indent c key) {k : Dependency} (mem : k ∈ a.depKeys indent c.name) :
    ∃ sub, a.design.get? k.name = some sub ∧ a.Keyed indent sub k.key := by
  obtain ⟨dep, -, found⟩ := List.mem_filterMap.mp mem
  obtain rfl := key?_name found
  have passed := key?_mem_order found
  have known := mem_names_of_mem_order keyed.faithful passed
  obtain ⟨sub, hsub, name⟩ := Design.exists_of_mem_names known
  refine ⟨sub, Design.get?_eq_some_iff.mpr ⟨hsub, name⟩, keyed.faithful, hsub, ?_, ?_⟩
  · rwa [name]
  · rwa [name]

/-- Components with the same key depend on components with the same keys where the key of one is
made of the keys of all that it instantiates: then the key of the other is, too. -/
theorem KeepsApart.depKeys_eq {builds : List (Analysis × Int)} (apart : KeepsApart builds)
    {a a' : Analysis} {indent indent' : Int} (hb : (a, indent) ∈ builds)
    (hb' : (a', indent') ∈ builds) (fits : 0 ≤ indent ∧ indent < 256)
    (fits' : 0 ≤ indent' ∧ indent' < 256) {c c' : Component} {key : Digest}
    (keyed : a.Keyed indent c key) (keyed' : a'.Keyed indent' c' key)
    (complete : a.Complete indent) :
    a'.depKeys indent' c'.name = a.depKeys indent c.name := by
  obtain ⟨-, same, -, bytes⟩ := apart.of_key_eq hb hb' fits fits' keyed keyed'
  refine Key.dependencies_eq ?_ bytes.symm
  rw [complete c.name keyed.passed, depNames_eq_of_plain_eq keyed keyed' same]
  exact a'.depKeys_names indent' c'.name

/-- Components with the same key have the same VHDL where keys are made so. -/
theorem KeepsApart.vhdl_eq {builds : List (Analysis × Int)} (apart : KeepsApart builds)
    {a a' : Analysis} {indent indent' : Int} (hb : (a, indent) ∈ builds)
    (hb' : (a', indent') ∈ builds) (fits : 0 ≤ indent ∧ indent < 256)
    (fits' : 0 ≤ indent' ∧ indent' < 256) {c c' : Component} {key : Digest}
    (keyed : a.Keyed indent c key) (keyed' : a'.Keyed indent' c' key)
    (complete : a.Complete indent) {g g' : Vhdl.Generator} (library : g.library = some a.design)
    (library' : g'.library = some a'.design) (width : g.indent = indent)
    (width' : g'.indent = indent') : (g.emit c).1.toOption = (g'.emit c').1.toOption := by
  obtain ⟨-, same, indents, -⟩ := apart.of_key_eq hb hb' fits fits' keyed keyed'
  have deps := apart.depKeys_eq hb hb' fits fits' keyed keyed' complete
  refine Vhdl.Generator.emit_eq_of_plain_eq (width.trans (indents.trans width'.symm)) same ?_
  intro i hi
  -- the type of the instance has the same key on both sides, so it is the same component
  have mem : i.type ∈ (a.depKeys indent c.name).map (·.name) := by
    rw [complete c.name keyed.passed]
    exact keyed.mem_depNames_iff.mpr ⟨i, hi, rfl⟩
  obtain ⟨k, hk, type⟩ := List.mem_map.mp mem
  obtain ⟨sub, get, subKeyed⟩ := keyed.dep hk
  obtain ⟨sub', get', subKeyed'⟩ := keyed'.dep (deps ▸ hk)
  obtain ⟨-, plain, -, -⟩ := apart.of_key_eq hb hb' fits fits' subKeyed subKeyed'
  rw [library, library', ← type]
  simp only [Vhdl.interface?, Option.bind_some, get, get', Option.map_some, plain]

end Build
end CircuitCompiler
