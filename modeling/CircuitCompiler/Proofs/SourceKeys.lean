import CircuitCompiler.Proofs.Transparency

/-!
# What a key identifies

The key of a component stands for the texts of all that it instantiates, directly or not. Going down
from the component, equal keys mean equal texts and equal keys one step further; going up in the
order of the components, equal texts mean equal keys.

* `Build.KeepsApart.keyed_below`: equal keys of components mean equal keys of all below them;
* `Build.Analysis.key?_eq_of_texts`: equal texts of all below a component mean equal keys;
* `Build.key_identifies_source`: where the digest keeps apart what is digested, a key identifies the
  indentation and the texts.
-/

namespace CircuitCompiler.Build

/-- The texts of the components that a component instantiates, directly or not, by their names. -/
def Analysis.subtexts (a : Analysis) (name : String) : Set (String × Bytes) :=
  {p | Relation.TransGen a.design.Instantiates name p.1 ∧ a.text? p.1 = some p.2}

namespace Analysis

variable {a a' : Analysis} {indent indent' : Int}

/-- Without a top-level component no user is stranded. -/
theorem not_strands (noTop : a.top = "") : ¬a.design.Strands a.top := by
  rintro ⟨⟨named, -⟩, -⟩
  exact named noTop

theorem Faithful.exists_keyed (faithful : a.Faithful) (indent : Int) {name : String}
    (passed : name ∈ a.verdict.order) :
    ∃ c key, c.name = name ∧ a.Keyed indent c key := by
  obtain ⟨c, mem, rfl⟩ := Design.exists_of_mem_names (mem_names_of_mem_order faithful passed)
  obtain ⟨key, keyed⟩ := faithful.keyed indent mem passed
  exact ⟨c, key, rfl, keyed⟩

/-- All that is below a component that passed the check passed it, too. -/
theorem Faithful.below_mem_order (faithful : a.Faithful) (calm : ¬a.design.Strands a.top)
    {name sub : String} (passed : name ∈ a.verdict.order)
    (below : Relation.TransGen a.design.Instantiates name sub) : sub ∈ a.verdict.order := by
  induction below with
  | single uses => exact faithful.dep_mem_order calm passed uses
  | tail _ uses ih => exact faithful.dep_mem_order calm ih uses

/-! ## From texts to keys -/

/-- Components of the same name and text that passed the check instantiate the same. -/
theorem depNames_eq_of_text_eq (faithful : a.Faithful) (faithful' : a'.Faithful) {name : String}
    (passed : name ∈ a.verdict.order) (passed' : name ∈ a'.verdict.order)
    (text : a.text? name = a'.text? name) : a.design.depNames name = a'.design.depNames name := by
  obtain ⟨c, key, rfl, keyed⟩ := faithful.exists_keyed 0 passed
  obtain ⟨c', key', name, keyed'⟩ := faithful'.exists_keyed 0 passed'
  obtain ⟨chunk, f, keepText, parsed, own, -⟩ := keyed.messages
  obtain ⟨chunk', f', keepText', parsed', own', -⟩ := keyed'.messages
  have same : chunk.text f = chunk'.text f' := by
    rw [name, ← text, own] at own'
    exact Option.some.inj own'
  have deps := depNames_eq_of_plain_eq keyed keyed' (Chunk.plain_eq_of_text_eq parsed parsed' same)
  rwa [name] at deps

/-- Where a component and all below it have the same texts in two analyses, it has the same key: by
induction along the order, in which all below a component stands before it. -/
theorem key?_eq_of_texts (faithful : a.Faithful) (faithful' : a'.Faithful)
    (calm : ¬a.design.Strands a.top) (calm' : ¬a'.design.Strands a'.top) (indent : Int)
    {before after : List String} {name : String} (split : a.verdict.order = before ++ name :: after)
    (passed' : name ∈ a'.verdict.order)
    (texts : ∀ sub, Relation.ReflTransGen a.design.Instantiates name sub →
      a.text? sub = a'.text? sub) : a.key? indent name = a'.key? indent name := by
  induction size : before.length using Nat.strong_induction_on generalizing before after name with
  | _ n ih =>
    have passed : name ∈ a.verdict.order := by simp [split]
    have own := texts name .refl
    have names := depNames_eq_of_text_eq faithful faithful' passed passed' own
    -- what it instantiates stands before it in the order, and so has equal keys already
    have deps : a.depKeys indent name = a'.depKeys indent name := by
      rw [depKeys, depKeys, ← names]
      refine List.filterMap_congr fun dep mem => ?_
      obtain ⟨uses, -⟩ := Design.mem_depNames.mp mem
      obtain ⟨uses', -⟩ := Design.mem_depNames.mp (names ▸ mem)
      have early : dep ∈ before := by
        rw [faithful.verdict] at split
        exact Design.order_closed calm split uses
      obtain ⟨front, back, rfl⟩ := List.append_of_mem early
      refine ih front.length ?_ (by rw [split, List.append_assoc]; rfl)
        (faithful'.dep_mem_order calm' passed' uses')
        (fun sub below => texts sub (.head uses below)) rfl
      rw [← size, List.length_append, List.length_cons]
      omega
    have message : a.keyMessage? indent name = a'.keyMessage? indent name := by
      rw [keyMessage?, keyMessage?, contentMessage?_eq, contentMessage?_eq, own, deps]
    rw [key?_eq faithful indent passed, key?_eq faithful' indent passed', message]

end Analysis

/-! ## From keys to texts -/

section Apart

variable {builds : List (Analysis × Int)} (apart : KeepsApart builds) {a a' : Analysis}
  {indent indent' : Int} (hb : (a, indent) ∈ builds) (hb' : (a', indent') ∈ builds)
  (fits : 0 ≤ indent ∧ indent < 256) (fits' : 0 ≤ indent' ∧ indent' < 256)

include apart hb hb' fits fits'

/-- Components with the same key instantiate components with the same names and keys. -/
theorem KeepsApart.keyed_dep {c c' : Component} {key : Digest} (keyed : a.Keyed indent c key)
    (keyed' : a'.Keyed indent' c' key) (calm : ¬a.design.Strands a.top) {dep : String}
    (uses : a.design.Instantiates c.name dep) :
    a'.design.Instantiates c'.name dep ∧ ∃ sub sub' subKey, sub.name = dep ∧ sub'.name = dep ∧
      a.Keyed indent sub subKey ∧ a'.Keyed indent' sub' subKey := by
  have complete := (keyed.faithful.complete_iff indent).mpr calm
  have deps := apart.depKeys_eq hb hb' fits fits' keyed keyed' complete
  have known : dep ∈ a.design.depNames c.name := by
    obtain ⟨c₀, hc₀, name, i, hi, rfl⟩ := uses
    obtain rfl := List.inj_on_of_nodup_map a.design.distinct hc₀ keyed.mem name
    exact keyed.mem_depNames_iff.mpr ⟨i, hi, rfl⟩
  rw [← complete c.name keyed.passed] at known
  obtain ⟨k, hk, rfl⟩ := List.mem_map.mp known
  obtain ⟨sub, get, subKeyed⟩ := keyed.dep hk
  obtain ⟨sub', get', subKeyed'⟩ := keyed'.dep (deps ▸ hk)
  have known' : k.name ∈ a'.design.depNames c'.name :=
    (a'.depKeys_names indent' c'.name).subset (List.mem_map_of_mem (deps ▸ hk))
  exact ⟨(Design.mem_depNames.mp known').1, sub, sub', k.key,
    (Design.get?_eq_some_iff.mp get).2, (Design.get?_eq_some_iff.mp get').2, subKeyed, subKeyed'⟩

/-- Below components with the same key there are components with the same names and keys. -/
theorem KeepsApart.keyed_below {c c' : Component} {key : Digest} (keyed : a.Keyed indent c key)
    (keyed' : a'.Keyed indent' c' key) (calm : ¬a.design.Strands a.top) {name : String}
    (below : Relation.TransGen a.design.Instantiates c.name name) :
    Relation.TransGen a'.design.Instantiates c'.name name ∧ ∃ sub sub' subKey, sub.name = name ∧
      sub'.name = name ∧ a.Keyed indent sub subKey ∧ a'.Keyed indent' sub' subKey := by
  induction below with
  | single uses =>
    obtain ⟨uses', found⟩ := apart.keyed_dep hb hb' fits fits' keyed keyed' calm uses
    exact ⟨.single uses', found⟩
  | tail _ uses ih =>
    obtain ⟨below', sub, sub', subKey, rfl, name', subKeyed, subKeyed'⟩ := ih
    obtain ⟨uses', found⟩ := apart.keyed_dep hb hb' fits fits' subKeyed subKeyed' calm uses
    rw [name'] at uses'
    exact ⟨below'.tail uses', found⟩

/-- Below components with the same key there are the same texts. -/
theorem KeepsApart.subtexts_subset {c c' : Component} {key : Digest}
    (keyed : a.Keyed indent c key) (keyed' : a'.Keyed indent' c' key)
    (calm : ¬a.design.Strands a.top) : a.subtexts c.name ⊆ a'.subtexts c'.name := by
  rintro ⟨name, text⟩ ⟨below, own⟩
  obtain ⟨below', sub, sub', subKey, rfl, name', subKeyed, subKeyed'⟩ :=
    apart.keyed_below hb hb' fits fits' keyed keyed' calm below
  obtain ⟨same, -⟩ := apart.of_key_eq hb hb' fits fits' subKeyed subKeyed'
  refine ⟨below', ?_⟩
  rw [name'] at same
  exact same.symm.trans own

end Apart

/-- In two analyses without a top-level component, a component that passed both checks has keys, and
they are equal exactly if the indentation, the text of the component and the texts of all that it
instantiates, directly or not, are equal. -/
theorem key_identifies_source {a a' : Analysis} {sources sources' : Sources} {keepText keepText' : Bool}
    {indent indent' : Int} {name : String} (made : a = .ofSources sources "" keepText)
    (made' : a' = .ofSources sources' "" keepText') (fits : 1 ≤ indent ∧ indent ≤ 16)
    (fits' : 1 ≤ indent' ∧ indent' ≤ 16) (passed : name ∈ a.verdict.order)
    (passed' : name ∈ a'.verdict.order) (apart : KeepsApart [(a, indent), (a', indent')]) :
    ∃ key key', a.key? indent name = some ⟨name, key⟩ ∧ a'.key? indent' name = some ⟨name, key'⟩ ∧
      (key = key' ↔ indent = indent' ∧ a.text? name = a'.text? name ∧
        a.subtexts name = a'.subtexts name) := by
  have faithful : a.Faithful := made ▸ Analysis.ofSources_faithful _ _ _
  have faithful' : a'.Faithful := made' ▸ Analysis.ofSources_faithful _ _ _
  have calm : ¬a.design.Strands a.top := Analysis.not_strands (made ▸ rfl)
  have calm' : ¬a'.design.Strands a'.top := Analysis.not_strands (made' ▸ rfl)
  obtain ⟨c, key, rfl, keyed⟩ := faithful.exists_keyed indent passed
  obtain ⟨c', key', name, keyed'⟩ := faithful'.exists_keyed indent' passed'
  have here : (a, indent) ∈ [(a, indent), (a', indent')] := by simp
  have there : (a', indent') ∈ [(a, indent), (a', indent')] := by simp
  have found' := keyed'.key
  rw [name] at found'
  refine ⟨key, key', keyed.key, found', ?_⟩
  have width : 0 ≤ indent ∧ indent < 256 := by omega
  have width' : 0 ≤ indent' ∧ indent' < 256 := by omega
  constructor
  · -- equal keys are of equal byte strings, at the component and at all below it
    rintro rfl
    obtain ⟨text, -, same, -⟩ := apart.of_key_eq here there width width' keyed keyed'
    have down := apart.subtexts_subset here there width width' keyed keyed' calm
    have up := apart.subtexts_subset there here width' width keyed' keyed calm'
    rw [name] at text down up
    exact ⟨same, text, down.antisymm up⟩
  · -- equal sets of texts are equal texts name by name, as a name has one text
    rintro ⟨rfl, text, subtexts⟩
    have texts : ∀ sub, Relation.ReflTransGen a.design.Instantiates c.name sub →
        a.text? sub = a'.text? sub := by
      intro sub below
      rcases Relation.reflTransGen_iff_eq_or_transGen.mp below with rfl | below
      · exact text
      · obtain ⟨s, _, rfl, subKeyed⟩ :=
          faithful.exists_keyed indent (faithful.below_mem_order calm passed below)
        obtain ⟨_, _, _, _, own, -⟩ := subKeyed.messages
        have mem : (s.name, _) ∈ a.subtexts c.name := ⟨below, own⟩
        rw [subtexts] at mem
        exact own.trans mem.2.symm
    obtain ⟨before, after, split⟩ := List.append_of_mem passed
    have same := Analysis.key?_eq_of_texts faithful faithful' calm calm' indent split passed' texts
    rw [keyed.key, found'] at same
    cases same
    rfl

/-- The byte strings of two builds are kept apart if no two of them have the same digest. -/
theorem KeepsApart.of_nodup {b b' : Analysis × Int}
    (contents : ((b.1.contentMessages b.2 ++ b'.1.contentMessages b'.2).dedup.map
      Digest.ofBytes).Nodup)
    (keys : ((b.1.keyMessages b.2 ++ b'.1.keyMessages b'.2).dedup.map Digest.ofBytes).Nodup) :
    KeepsApart [b, b'] := by
  have injOn {f : Analysis × Int → List Bytes}
      (nodup : ((f b ++ f b').dedup.map Digest.ofBytes).Nodup) :
      Set.InjOn Digest.ofBytes {m | ∃ b₀ ∈ [b, b'], m ∈ f b₀} := by
    have mem : ∀ m, (∃ b₀ ∈ [b, b'], m ∈ f b₀) → m ∈ (f b ++ f b').dedup := by
      rintro m ⟨b₀, hb, hm⟩
      rw [List.mem_dedup, List.mem_append]
      rcases List.mem_pair.mp hb with rfl | rfl
      · exact .inl hm
      · exact .inr hm
    exact fun m hm m' hm' same => List.inj_on_of_nodup_map nodup (mem m hm) (mem m' hm') same
  exact ⟨injOn contents, injOn keys⟩

/-- A build of the register and its user. -/
def registerBuild (generic : String) : Analysis :=
  (analysed (registerTree generic) (registerRequest "")).1

/-! The digests of the register with its other generic, and of what is made of them. -/

def otherContent : Digest :=
  ⟨[0x93, 0x97, 0xd2, 0xa5, 0x1c, 0xc0, 0xf4, 0xac, 0x60, 0x09, 0xb4, 0x60, 0x06, 0xc7, 0xcb, 0x93,
    0xa8, 0x16, 0x5b, 0x3c, 0xf8, 0xa4, 0x8f, 0x31, 0xd7, 0x0c, 0x19, 0x3b, 0xd7, 0x66, 0x18, 0x4d],
    rfl⟩

def otherDigest : Digest :=
  ⟨[0xd4, 0x89, 0x1b, 0xff, 0x32, 0x63, 0xa3, 0x80, 0xf4, 0x34, 0x06, 0x07, 0x55, 0x29, 0x30, 0x9d,
    0x3c, 0xb1, 0xdf, 0xbc, 0x55, 0x78, 0x77, 0x3a, 0xb1, 0x1e, 0xdd, 0xee, 0xd2, 0xd6, 0x39, 0x1c],
    rfl⟩

def otherUserDigest : Digest :=
  ⟨[0x6f, 0xb0, 0x96, 0xd9, 0x9a, 0x14, 0xa1, 0xbc, 0x5d, 0x23, 0x12, 0x4b, 0xbb, 0x6d, 0x7e, 0xad,
    0x87, 0x99, 0x08, 0x84, 0xc0, 0x61, 0x2d, 0x21, 0xcd, 0xd0, 0x90, 0x13, 0x90, 0x1f, 0xff, 0x31],
    rfl⟩

theorem digests_other :
    Key.content (registerText "V") 4 = otherContent ∧ Key.combine otherContent [] = otherDigest ∧
      Key.combine userContent [⟨"R", otherDigest⟩] = otherUserDigest :=
  ⟨by decide +kernel, by decide +kernel, by decide +kernel⟩

theorem keepsApart_register : KeepsApart [(registerBuild "W", 4), (registerBuild "V", 4)] := by
  obtain ⟨contents, keys⟩ := messages_untopped (.inl rfl : "W" = "W" ∨ "W" = "V")
  obtain ⟨contents', keys'⟩ := messages_untopped (.inr rfl : "V" = "W" ∨ "V" = "V")
  obtain ⟨content, content₁, key, key₁⟩ := digests_register
  obtain ⟨content', key', key₁'⟩ := digests_other
  apply KeepsApart.of_nodup
  · have once : ([Key.contentBytes (registerText "W") 4, Key.contentBytes userText 4] ++
        [Key.contentBytes (registerText "V") 4, Key.contentBytes userText 4]).dedup =
        [Key.contentBytes (registerText "W") 4, Key.contentBytes (registerText "V") 4,
          Key.contentBytes userText 4] := by decide +kernel
    rw [registerBuild, registerBuild, contents, contents', once]
    show [Key.content (registerText "W") 4, Key.content (registerText "V") 4,
      Key.content userText 4].Nodup
    rw [content, content', content₁]
    decide
  · have once : ([Key.combinedBytes registerContent [],
          Key.combinedBytes userContent [⟨"R", registerDigest⟩]] ++
        [Key.combinedBytes otherContent [],
          Key.combinedBytes userContent [⟨"R", otherDigest⟩]]).dedup =
        [Key.combinedBytes registerContent [], Key.combinedBytes userContent [⟨"R", registerDigest⟩],
          Key.combinedBytes otherContent [], Key.combinedBytes userContent [⟨"R", otherDigest⟩]] := by
      decide +kernel
    rw [registerBuild, registerBuild, keys, keys', content, content', content₁, key, key', once]
    show [Key.combine registerContent [], Key.combine userContent [⟨"R", registerDigest⟩],
      Key.combine otherContent [], Key.combine userContent [⟨"R", otherDigest⟩]].Nodup
    rw [key, key₁, key', key₁']
    decide

/-- A change of the register changes the key of its user. -/
theorem key_identifies_source_register :
    ∃ key key', (registerBuild "W").key? 4 "T" = some ⟨"T", key⟩ ∧
      (registerBuild "V").key? 4 "T" = some ⟨"T", key'⟩ ∧ key ≠ key' := by
  have passed : ∀ generic, generic = "W" ∨ generic = "V" →
      "T" ∈ (registerBuild generic).verdict.order := by
    intro generic h
    rw [registerBuild, order_untopped h]
    decide
  have text : ∀ generic, generic = "W" ∨ generic = "V" →
      (registerBuild generic).text? "R" = some (registerText generic) := by
    intro generic h
    have message := (contentMessage?_register h "").1
    rw [Analysis.contentMessage?_eq] at message
    obtain ⟨text, found, same⟩ := Option.map_eq_some_iff.mp message
    rw [(Key.contentBytes_inj same (by decide) (by decide)).1] at found
    exact found
  have made : ∀ generic, registerBuild generic =
      .ofSources (loadSources (registerTree generic) ["R", "T"]) "" false := fun _ => rfl
  obtain ⟨key, key', found, found', same⟩ := key_identifies_source (made "W") (made "V")
    (by decide) (by decide) (passed "W" (.inl rfl)) (passed "V" (.inr rfl)) keepsApart_register
  refine ⟨key, key', found, found', fun equal => ?_⟩
  obtain ⟨-, -, subtexts⟩ := same.mp equal
  have uses : (registerBuild "W").design.Instantiates "T" "R" := by
    have known : "R" ∈ (registered "W").design.depNames "T" := by
      rw [(depNames_register (.inl rfl)).2]
      exact List.mem_cons_self
    rw [registerBuild, design_register (.inl rfl)]
    exact (Design.mem_depNames.mp known).1
  have below : ("R", registerText "W") ∈ (registerBuild "W").subtexts "T" :=
    ⟨.single uses, text "W" (.inl rfl)⟩
  rw [subtexts] at below
  have texts : registerText "W" = registerText "V" :=
    Option.some.inj (below.2.symm.trans (text "V" (.inr rfl)))
  revert texts
  decide +kernel

end CircuitCompiler.Build
