import CircuitCompiler.Proofs.PortMaps

/-!
# The types of signals that stand for ports

A signal is declared with a type when its name first stands for a port. That is the type of the port
in the declaration of its component, with the value that the instance gives to a generic in place of
the generic. In two cases it is not: where another port whose name runs together with the port's came
first, and where a port that is no vector has a width that hangs on a generic without a usable value.
There the signal is a single bit, whatever the type of the port.

* `Decl.TypeAt`: the type of a port at an instance, and `Decl.typeAt_givenType_iff`: when a signal
  gets it;
* `Vhdl.Types`: what a run of lowering declares the signals with;
* `Vhdl.emit_typesAgree_iff`: when the types of all port maps agree.
-/

namespace CircuitCompiler

/-! ## The type of a port at an instance -/

/-- What a value of a generic makes of a width that hangs on it: a name passes another generic on,
and an integer from 1 to 2³² - 1 is a number of bits. -/
inductive Setting.Gives : Setting → Width → Prop
  | name (s : Segment) : Gives (.name s) (.generic s.name)
  | bits {span : Span} {value : Constant} {n : Nat} : value.number? = some n → 1 ≤ n →
      n ≤ 2 ^ 32 - 1 → Gives (.literal span value) (.literal n)

theorem Setting.width?_eq_some_iff {s : Setting} {w : Width} : s.width? = some w ↔ s.Gives w := by
  constructor
  · intro h
    cases s with
    | name s =>
      cases h
      exact .name s
    | literal span value =>
      obtain ⟨n, number, width⟩ := Option.bind_eq_some_iff.mp h
      unfold Width.ofNat? at width
      split at width
      · next fits =>
        cases width
        simp only [Bool.and_eq_true, decide_eq_true_eq] at fits
        exact .bits number fits.1 (by omega)
      · cases width
  · intro h
    cases h with
    | name s => rfl
    | @bits span value n number positive fits =>
      have fits : (decide (0 < n) && decide (n < 4294967296)) = true := by
        simp only [Bool.and_eq_true, decide_eq_true_eq]
        omega
      rw [width?, number, Option.bind_some, Width.ofNat?, if_pos fits]

/-- The bindings give the generic a value that makes a width of it. -/
def Binding.Gives (bs : List Binding) (name : String) (w : Width) : Prop :=
  ∃ value, Binding.value? bs name = some value ∧ value.Gives w

theorem Width.forInstance?_generic {bs : List Binding} {name : String} {w : Width} :
    (Width.generic name).forInstance? bs = some w ↔ Binding.Gives bs name w := by
  rw [forInstance?, Option.bind_eq_some_iff]
  simp only [Setting.width?_eq_some_iff]
  rfl

namespace Decl

/-- The type of a port at an instance with the given bindings: the one it is declared with, with the
value of a generic in place of the generic that the width of a vector hangs on. Where the generic has
no usable value, the vector is a single bit. -/
inductive TypeAt (bs : List Binding) (d : Decl) : String → Prop
  | declared : (d.type = .vec → ∀ name, d.width ≠ .generic name) → TypeAt bs d d.vhdlType
  | given {name : String} {w : Width} : d.type = .vec → d.width = .generic name →
      Binding.Gives bs name w → TypeAt bs d (DataType.vec.vhdl w)
  | unusable {name : String} : d.type = .vec → d.width = .generic name →
      (∀ w, ¬Binding.Gives bs name w) → TypeAt bs d Vhdl.bitType

/-- The port is no vector, but its width hangs on a generic that has no usable value. -/
def Stray (bs : List Binding) (d : Decl) : Prop :=
  d.type ≠ .vec ∧ ∃ name, d.width = .generic name ∧ ∀ w, ¬Binding.Gives bs name w

/-- The type that lowering gives to a signal for the port. -/
def givenType (bs : List Binding) (d : Decl) : String :=
  ((d.width.forInstance? bs).map d.type.vhdl).getD Vhdl.bitType

variable {bs : List Binding} {d : Decl}

theorem vhdl_of_not_vec {type : DataType} (other : type ≠ .vec) (w w' : Width) :
    type.vhdl w = type.vhdl w' := by
  cases type with
  | vec => exact absurd rfl other
  | int | uint | bool => rfl

theorem vhdl_ne_bitType {type : DataType} (other : type ≠ .vec) (w : Width) :
    type.vhdl w ≠ Vhdl.bitType := by
  cases type with
  | vec => exact absurd rfl other
  | int | uint | bool => simp [DataType.vhdl, Vhdl.bitType]

theorem givenType_of_gives {name : String} {w : Width} (width : d.width = .generic name)
    (gives : Binding.Gives bs name w) : d.givenType bs = d.type.vhdl w := by
  rw [givenType, width, Width.forInstance?_generic.mpr gives]
  rfl

theorem givenType_of_unusable {name : String} (width : d.width = .generic name)
    (none : ∀ w, ¬Binding.Gives bs name w) : d.givenType bs = Vhdl.bitType := by
  have none : (Width.generic name).forInstance? bs = Option.none :=
    Option.eq_none_iff_forall_ne_some.mpr fun w given => none w (Width.forInstance?_generic.mp given)
  rw [givenType, width, none]
  rfl

theorem givenType_of_fixed (width : ∀ name, d.width ≠ .generic name) :
    d.givenType bs = d.vhdlType := by
  unfold givenType vhdlType
  cases found : d.width with
  | generic name => exact absurd found (width name)
  | scalar | literal => rfl

/-- A port has one type at an instance. -/
theorem TypeAt.unique {s t : String} (hs : d.TypeAt bs s) (ht : d.TypeAt bs t) : s = t := by
  cases hs with
  | declared fixed =>
    cases ht with
    | declared => rfl
    | given vec width => exact absurd width (fixed vec _)
    | unusable vec width => exact absurd width (fixed vec _)
  | given vec width gives =>
    cases ht with
    | declared fixed => exact absurd width (fixed vec _)
    | given vec' width' gives' =>
      have first := givenType_of_gives width gives
      have second := givenType_of_gives width' gives'
      rw [vec] at first second
      exact first.symm.trans second
    | unusable _ width' none =>
      cases width.symm.trans width'
      exact absurd gives (none _)
  | unusable vec width none =>
    cases ht with
    | declared fixed => exact absurd width (fixed vec _)
    | given _ width' gives =>
      cases width.symm.trans width'
      exact absurd gives (none _)
    | unusable => rfl

/-- A signal gets the type of its port unless the port strays. -/
theorem typeAt_givenType_iff : d.TypeAt bs (d.givenType bs) ↔ ¬d.Stray bs := by
  constructor
  · rintro typed ⟨other, name, width, none⟩
    rw [givenType_of_unusable width none] at typed
    have declared : d.TypeAt bs d.vhdlType := .declared fun vec => absurd vec other
    exact vhdl_ne_bitType other _ (declared.unique typed)
  · intro fine
    by_cases generic : ∃ name, d.width = .generic name
    · obtain ⟨name, width⟩ := generic
      by_cases usable : ∃ w, Binding.Gives bs name w
      · obtain ⟨w, gives⟩ := usable
        rw [givenType_of_gives width gives]
        by_cases vec : d.type = .vec
        · rw [vec]
          exact .given vec width gives
        · rw [vhdl_of_not_vec vec w d.width]
          exact .declared fun vec' => absurd vec' vec
      · have none : ∀ w, ¬Binding.Gives bs name w := fun w gives => usable ⟨w, gives⟩
        have vec : d.type = .vec := by
          by_contra other
          exact fine ⟨other, name, width, none⟩
        rw [givenType_of_unusable width none]
        exact .unusable vec width none
    · have fixed : ∀ name, d.width ≠ .generic name := fun name width => generic ⟨name, width⟩
      rw [givenType_of_fixed fixed]
      exact .declared fun _ => fixed

end Decl

/-! ## Paths to ports -/

/-- The path leads to the port that is declared so, of the instance. -/
def Design.LeadsTo (d : Design) (c : Component) (p : Path) (i : Instance) (port : Decl) : Prop :=
  i ∈ c.instances ∧ i.name = p.head.name ∧
    ∃ sub ∈ d.components, sub.name = i.type ∧ port ∈ sub.ports ∧ port.name = Vhdl.portName p

/-- The type of the port that the path leads to, at its instance. -/
def Design.PathType (d : Design) (c : Component) (p : Path) (type : String) : Prop :=
  ∃ i port, d.LeadsTo c p i port ∧ port.TypeAt i.bindings type

/-- The path leads to a port that strays at its instance. -/
def Design.Strays (d : Design) (c : Component) (p : Path) : Prop :=
  ∃ i port, d.LeadsTo c p i port ∧ port.Stray i.bindings

theorem Component.Parsed.ports_nodup {c : Component} (parsed : c.Parsed) :
    (c.ports.map (·.name)).Nodup := by
  refine List.Nodup.sublist ?_ parsed.declared_nodup
  unfold Component.ports Component.declared
  cases found : c.items.findSome? Item.ports? with
  | none => exact List.nil_sublist _
  | some ds =>
    obtain ⟨i, mem, here⟩ := List.exists_of_findSome?_eq_some found
    cases i with
    | ports span ds' =>
      cases here
      exact List.sublist_flatten_of_mem (List.mem_map_of_mem mem)
    | generic | arch => cases here

namespace Vhdl

section Parsed

variable {d : Design} {c : Component} {p q : Path}
  (parsed : ∀ c ∈ d.components, c.Parsed) (known : c ∈ d.components)

include parsed

theorem port?_of_mem {sub : Component} {port : Decl} (hsub : sub ∈ d.components)
    (mem : port ∈ sub.ports) : sub.port? port.name = some port := by
  obtain ⟨found, hfound⟩ : ∃ found, sub.port? port.name = some found :=
    Option.isSome_iff_exists.mp (List.find?_isSome.mpr ⟨port, mem, by simp⟩)
  have name : found.name = port.name := by simpa using List.find?_some hfound
  rw [hfound, List.inj_on_of_nodup_map (parsed sub hsub).ports_nodup
    (List.mem_of_find?_eq_some hfound) mem name]

include known

/-- A path leads to one port at most, and another path to the same one where it has the same
names. -/
theorem leadsTo_unique {i j : Instance} {port port' : Decl} (names : p.names = q.names)
    (hp : d.LeadsTo c p i port) (hq : d.LeadsTo c q j port') : i = j ∧ port = port' := by
  obtain ⟨hi, name, sub, hsub, type, hport, named⟩ := hp
  obtain ⟨hj, name', sub', hsub', type', hport', named'⟩ := hq
  obtain ⟨head, tail⟩ := List.cons_eq_cons.mp names
  obtain rfl : i = j := List.inj_on_of_nodup_map (parsed c known).instances_nodup hi hj
    (name.trans (head.trans name'.symm))
  obtain rfl : sub = sub' := List.inj_on_of_nodup_map d.distinct hsub hsub' (type.trans type'.symm)
  refine ⟨rfl, List.inj_on_of_nodup_map (parsed sub hsub).ports_nodup hport hport' ?_⟩
  rw [named, named']
  exact congrArg (String.intercalate "_") tail

theorem pathType_unique {s t : String} (hs : d.PathType c p s) (ht : d.PathType c p t) : s = t := by
  obtain ⟨i, port, leads, typed⟩ := hs
  obtain ⟨j, port', leads', typed'⟩ := ht
  obtain ⟨rfl, rfl⟩ := leadsTo_unique parsed known rfl leads leads'
  exact typed.unique typed'

theorem pathType_of_names (names : p.names = q.names) {t : String} (hp : d.PathType c p t)
    {j : Instance} {port : Decl} (leads : d.LeadsTo c q j port) : d.PathType c q t := by
  obtain ⟨i, port', leads', typed⟩ := hp
  obtain ⟨rfl, rfl⟩ := leadsTo_unique parsed known names leads' leads
  exact ⟨_, _, leads, typed⟩

end Parsed

/-! ## What signals are declared with -/

/-- The type that a path gives to its signal. -/
def Lowering.wireType? (l : Lowering) (p : Path) : Option String :=
  (l.socket? p.head.name).bind fun s => s.wireType? (portName p)

theorem Lowering.Alike.wireType? {l l' : Lowering} (alike : l.Alike l') (p : Path) :
    l'.wireType? p = l.wireType? p := by
  have same := alike.socket? p.head.name
  unfold Lowering.wireType?
  cases found : l.socket? p.head.name with
  | none =>
    rw [found, Option.map_none, Option.map_eq_none_iff] at same
    rw [same]
  | some s =>
    rw [found, Option.map_some, Option.map_eq_some_iff] at same
    obtain ⟨t, found', same⟩ := same
    rw [found']
    exact Socket.wireType?_congr same _

/-- The first of the paths whose signal has the name. -/
def firstFor? (ps : List Path) (name : String) : Option Path :=
  ps.find? fun p => signalName p == name

/-- From `l` to `l'`, both of lowering one component, each path has a signal declared, and a signal
that was not declared before has the type of the first path that it stands for. -/
structure Types (ps : List Path) (l l' : Lowering) : Prop where
  alike : l.Alike l'
  kept : l.wires ⊆ l'.wires
  signals : ∀ p ∈ ps, ∃ w ∈ l'.wires, w.name = signalName p
  added : ∀ w ∈ l'.wires, w ∈ l.wires ∨ (∀ v ∈ l.wires, v.name ≠ w.name) ∧
    ∃ p, firstFor? ps w.name = some p ∧ l.wireType? p = some w.type

theorem Types.trans {ps ps' : List Path} {l l' l'' : Lowering} (h : Types ps l l')
    (h' : Types ps' l' l'') : Types (ps ++ ps') l l'' where
  alike := h.alike.trans h'.alike
  kept := List.Subset.trans h.kept h'.kept
  signals := by
    refine List.forall_mem_append.mpr ⟨fun p hp => ?_, h'.signals⟩
    obtain ⟨w, hw, name⟩ := h.signals p hp
    exact ⟨w, h'.kept hw, name⟩
  added := by
    intro w hw
    rcases h'.added w hw with old | ⟨new, p, first, typed⟩
    · rcases h.added w old with older | ⟨new, p, first, typed⟩
      · exact .inl older
      · refine .inr ⟨new, p, ?_, typed⟩
        rw [firstFor?, List.find?_append, ← firstFor?, first]
        rfl
    · refine .inr ⟨fun v hv => new v (h.kept hv), p, ?_, (h.alike.wireType? p).symm.trans typed⟩
      -- a path of the first part with this signal would have declared it
      have none : firstFor? ps w.name = none := by
        refine List.find?_eq_none.mpr fun q hq same => ?_
        obtain ⟨v, hv, name⟩ := h.signals q hq
        exact new v hv (name.trans (eq_of_beq same))
      rw [firstFor?, List.find?_append, ← firstFor?, none]
      exact first

theorem types_kept : Lower.Kept Types where
  wire := by
    intro p l signal l' h
    rw [Lower.run_wire] at h
    split at h
    · cases h
    · next s found =>
      split at h
      · cases h
      · split at h
        · cases h
        · next type typed =>
          cases h
          have given : l.wireType? p = some type := by
            rw [Lowering.wireType?, found]
            exact typed
          have alike := ((Lowering.Alike.refl l).connect p.head.name (portName p)
            (signalName p)).addWire ⟨signalName p, type, p.span⟩
          unfold Lowering.addWire at alike ⊢
          split at alike
          · next declared =>
            rw [if_pos declared]
            obtain ⟨v, hv, name⟩ := List.any_eq_true.mp declared
            refine ⟨alike, List.Subset.refl _, ?_, fun w hw => .inl hw⟩
            exact List.forall_mem_singleton.mpr ⟨v, hv, eq_of_beq name⟩
          · next undeclared =>
            rw [if_neg undeclared]
            refine ⟨alike, List.subset_append_left _ _, ?_, fun w hw => ?_⟩
            · exact List.forall_mem_singleton.mpr ⟨_, List.mem_append_right _ (List.mem_singleton.mpr
                rfl), rfl⟩
            · rcases List.mem_append.mp hw with old | new
              · exact .inl old
              · rw [List.mem_singleton.mp new]
                refine .inr ⟨fun v hv same => undeclared ?_, p, by simp [firstFor?], given⟩
                exact List.any_eq_true.mpr ⟨v, hv, beq_iff_eq.mpr same⟩
  assigns := fun l as => ⟨⟨rfl, rfl, rfl⟩, List.Subset.refl _, by simp, fun w hw => .inl hw⟩
  trans := fun _ _ _ _ _ h h' => h.trans h'

/-- A signal of a lowered component has the type of the first path that it stands for. -/
theorem lower_wireType {library : Option Design} {c : Component} {l : Lowering}
    (h : lower library c = (.ok (), l)) {w : Wire} (hw : w ∈ l.wires) :
    ∃ p, firstFor? c.dottedPaths w.name = some p ∧
      (Lowering.start library c).wireType? p = some w.type := by
  rcases (types_kept.run c.assignments _ () l h).added w hw with old | ⟨-, first⟩
  · cases old
  · exact first

/-! ## Components that pass the check -/

/-- In all port maps the types agree: that of the signal is that of the port in the declaration of
its component, at the instance. -/
def TypesAgree (l : Lowering) : Prop :=
  ∀ s ∈ l.sockets, ∀ k ∈ s.connections, ∀ sub ∈ subcomponents l, sub.name = s.inst.type →
    ∀ port ∈ sub.ports, port.name = k.port → ∀ w ∈ l.wires, w.name = k.signal →
      port.TypeAt s.inst.bindings w.type

/-- Every entry of a port map is about a port of a declared component and a declared signal. -/
def EntriesDeclared (l : Lowering) : Prop :=
  ∀ s ∈ l.sockets, ∀ k ∈ s.connections,
    (∃ sub ∈ subcomponents l, sub.name = s.inst.type ∧ ∃ port ∈ sub.ports, port.name = k.port) ∧
      ∃ w ∈ l.wires, w.name = k.signal

/-- Where the relation is equality on the elements of a list, removing repetitions loses none. -/
theorem mem_eraseDupsBy_iff {α : Type} {same : α → α → Bool} (as : List α)
    (exact_ : ∀ a ∈ as, ∀ b ∈ as, same a b = true ↔ a = b) {x : α} :
    x ∈ as.eraseDupsBy same ↔ x ∈ as := by
  induction size : as.length using Nat.strongRecOn generalizing as with
  | ind n ih =>
    cases as with
    | nil => rw [List.eraseDupsBy_nil]
    | cons a rest =>
      have shorter : (rest.filter fun b => same b a = false).length < n :=
        size ▸ Nat.lt_succ_of_le (List.length_filter_le _ rest)
      have inside : ∀ b ∈ rest.filter fun b => same b a = false, b ∈ a :: rest := fun b hb =>
        List.mem_cons_of_mem a (List.mem_filter.mp hb).1
      rw [List.eraseDupsBy_cons, List.mem_cons, List.mem_cons,
        ih _ shorter _ (fun b hb c hc => exact_ b (inside b hb) c (inside c hc)) rfl,
        List.mem_filter, decide_eq_true_eq, ← Bool.not_eq_true]
      by_cases first : x = a
      · simp [first]
      · refine or_congr_right ⟨fun h => h.1, fun mem => ⟨mem, fun again => first ?_⟩⟩
        exact (exact_ x (List.mem_cons_of_mem a mem) a List.mem_cons_self).mp again

/-- The instances at work are those of the component, with the interfaces that are at hand. -/
theorem lower_interface {library : Option Design} {c : Component} {l : Lowering}
    (lowers : lower library c = (.ok (), l)) {s : Socket} (hs : s ∈ l.sockets) :
    s.inst ∈ c.instances ∧ s.sub? = interface? library s.inst.type := by
  have mem : s.unit ∈ (Lowering.start library c).sockets.map Socket.unit :=
    (lower_declares lowers).alike.sockets ▸ List.mem_map_of_mem hs
  obtain ⟨s₀, hs₀, same⟩ := List.mem_map.mp mem
  obtain ⟨i, hi, rfl⟩ := List.mem_map.mp hs₀
  obtain ⟨inst, sub⟩ := Prod.mk.inj same
  rw [← inst, ← sub]
  exact ⟨hi, rfl⟩

section Lowered

variable {d : Design} {c : Component} {l : Lowering} (lowers : lower (some d) c = (.ok (), l))

include lowers

/-- The instances at work are those of the component, with the interfaces of the design. -/
theorem lower_socket {s : Socket} (hs : s ∈ l.sockets) :
    s.inst ∈ c.instances ∧ s.sub? = d.get? s.inst.type := lower_interface lowers hs

/-- The components that are declared are those that the component instantiates. -/
theorem mem_subcomponents_iff {sub : Component} :
    sub ∈ subcomponents l ↔ sub ∈ d.components ∧ ∃ i ∈ c.instances, i.type = sub.name := by
  have subs : ∀ {sub}, sub ∈ l.sockets.filterMap (·.sub?) ↔
      sub ∈ d.components ∧ ∃ i ∈ c.instances, i.type = sub.name := by
    intro sub
    rw [List.mem_filterMap]
    constructor
    · rintro ⟨s, hs, known⟩
      obtain ⟨hi, interface⟩ := lower_socket lowers hs
      rw [interface, Design.get?_eq_some_iff] at known
      exact ⟨known.1, s.inst, hi, known.2.symm⟩
    · rintro ⟨hsub, i, hi, type⟩
      rw [← lower_insts lowers] at hi
      obtain ⟨s, hs, rfl⟩ := List.mem_map.mp hi
      refine ⟨s, hs, ?_⟩
      rw [(lower_socket lowers hs).2, Design.get?_eq_some_iff]
      exact ⟨hsub, type.symm⟩
  rw [subcomponents, mem_eraseDupsBy_iff _ ?_, subs]
  intro a ha b hb
  rw [beq_iff_eq]
  refine ⟨fun name => ?_, fun same => same ▸ rfl⟩
  exact List.inj_on_of_nodup_map d.distinct (subs.mp ha).1 (subs.mp hb).1 name

end Lowered

section Passing

variable {d : Design} {top : String} {c : Component} {l : Lowering} {p : Path}
  (parsed : ∀ c ∈ d.components, c.Parsed) (known : c ∈ d.components)

include known in
theorem exists_leadsTo (passes : c.name ∈ (d.check top).order) (hp : p ∈ c.dottedPaths) :
    ∃ i port, d.LeadsTo c p i port := by
  have leads : d.LeadsToPort c p := by
    by_contra astray
    exact (Design.mem_order_iff.mp passes).2.1 (.badPath known hp astray)
  obtain ⟨i, port, ⟨before, after, split, name, -⟩, one, sub, hsub, type, decl, hdecl, named⟩ := leads
  refine ⟨i, decl, by simp [split], name, sub, hsub, type, hdecl, ?_⟩
  simp [portName, one, named]

include parsed known

/-- The type that a path gives to its signal is the one that lowering gives for the port. -/
theorem wireType?_start {i : Instance} {port : Decl} (leads : d.LeadsTo c p i port) :
    (Lowering.start (some d) c).wireType? p = some (port.givenType i.bindings) := by
  obtain ⟨hi, name, sub, hsub, type, hport, named⟩ := leads
  have found : c.instances.find? (fun j => j.name == p.head.name) = some i := by
    obtain ⟨j, hj⟩ : ∃ j, c.instances.find? (fun j => j.name == p.head.name) = some j :=
      Option.isSome_iff_exists.mp (List.find?_isSome.mpr ⟨i, hi, by simpa using name⟩)
    have here : j.name = p.head.name := by simpa using List.find?_some hj
    rw [hj, List.inj_on_of_nodup_map (parsed c known).instances_nodup
      (List.mem_of_find?_eq_some hj) hi (here.trans name.symm)]
  have socket : (Lowering.start (some d) c).socket? p.head.name = some ⟨i, some sub, []⟩ := by
    have interface : d.get? i.type = some sub := Design.get?_eq_some_iff.mpr ⟨hsub, type⟩
    rw [Lowering.socket?, Lowering.start, List.find?_map, ← interface]
    exact congrArg _ found
  have declared : sub.port? (portName p) = some port := named ▸ port?_of_mem parsed hsub hport
  rw [Lowering.wireType?, socket]
  simp only [Option.bind_some, Socket.wireType?, declared, Option.map_some]
  rfl

/-- The types of all port maps agree if and only if ports whose names run together have the same
type, and no signal is first declared for a port that strays. -/
theorem typesAgree_iff (lowers : lower (some d) c = (.ok (), l))
    (passes : c.name ∈ (d.check top).order) :
    TypesAgree l ↔
      (∀ p ∈ c.dottedPaths, ∀ q ∈ c.dottedPaths, p.RunsInto q →
        ∃ type, d.PathType c p type ∧ d.PathType c q type) ∧
      ∀ p ∈ c.dottedPaths, firstFor? c.dottedPaths (signalName p) = some p → ¬d.Strays c p := by
  -- an entry of a port map is a path, and what agreement says of it is the type of the path
  have entry : ∀ p ∈ c.dottedPaths, TypesAgree l → ∀ w ∈ l.wires, w.name = signalName p →
      d.PathType c p w.type := by
    intro p hp agree w hw name
    obtain ⟨s, hs, inst⟩ := exists_socket lowers hp
    obtain ⟨i, port, leads⟩ := exists_leadsTo known passes hp
    obtain ⟨hi, named, sub, hsub, type, hport, portNamed⟩ := id leads
    obtain rfl : i = s.inst := List.inj_on_of_nodup_map (parsed c known).instances_nodup hi
      (lower_socket lowers hs).1 (named.trans inst.symm)
    refine ⟨s.inst, port, leads, agree s hs (connection p) ?_ sub ?_ type port hport portNamed w hw
      name⟩
    · exact (mem_connections_iff lowers hs).mpr ⟨p, hp, inst, rfl⟩
    · exact (mem_subcomponents_iff lowers).mpr ⟨hsub, s.inst, hi, type.symm⟩
  constructor
  · intro agree
    constructor
    · intro p hp q hq into
      obtain ⟨w, hw, name⟩ := (exists_wire_iff lowers).mpr ⟨p, hp, rfl⟩
      exact ⟨w.type, entry p hp agree w hw name, entry q hq agree w hw (name.trans into.signal)⟩
    · rintro p hp first ⟨i, port, leads, stray⟩
      obtain ⟨w, hw, name⟩ := (exists_wire_iff lowers).mpr ⟨p, hp, rfl⟩
      obtain ⟨p', first', typed⟩ := lower_wireType lowers hw
      rw [name, first, Option.some.injEq] at first'
      rw [← first', wireType?_start parsed known leads, Option.some.injEq] at typed
      obtain ⟨j, port', leads', typeAt⟩ := entry p hp agree w hw name
      obtain ⟨rfl, rfl⟩ := leadsTo_unique parsed known rfl leads leads'
      exact Decl.typeAt_givenType_iff.mp (typed ▸ typeAt) stray
  · rintro ⟨together, straight⟩ s hs k hk sub hsub type port hport portNamed w hw name
    obtain ⟨q, hq, inst, rfl⟩ := (mem_connections_iff lowers hs).mp hk
    obtain ⟨p, first, typed⟩ := lower_wireType lowers hw
    have hp : p ∈ c.dottedPaths := List.mem_of_find?_eq_some first
    have same : signalName p = w.name := by simpa using List.find?_some first
    have leads : d.LeadsTo c q s.inst port :=
      ⟨(lower_socket lowers hs).1, inst, sub, ((mem_subcomponents_iff lowers).mp hsub).1, type, hport,
        portNamed⟩
    -- the first path of the signal gives it the type of its own port
    obtain ⟨i, port', leads'⟩ := exists_leadsTo known passes hp
    rw [wireType?_start parsed known leads', Option.some.injEq] at typed
    have own : d.PathType c p w.type := by
      refine ⟨i, port', leads', typed ▸ Decl.typeAt_givenType_iff.mpr fun stray => ?_⟩
      exact straight p hp (same ▸ first) ⟨i, port', leads', stray⟩
    obtain ⟨s₁, one⟩ := short_of_passes known passes p hp
    obtain ⟨s₂, two⟩ := short_of_passes known passes q hq
    have there : d.PathType c q w.type := by
      rcases (signalName_eq_iff one two).mp (same.trans name) with names | into | into
      · exact pathType_of_names parsed known names own leads
      · obtain ⟨type, hp', hq'⟩ := together p hp q hq into
        exact pathType_unique parsed known own hp' ▸ hq'
      · obtain ⟨type, hq', hp'⟩ := together q hq p hp into
        exact pathType_unique parsed known own hp' ▸ hq'
    obtain ⟨j, port'', leads'', typeAt⟩ := there
    obtain ⟨rfl, rfl⟩ := leadsTo_unique parsed known rfl leads leads''
    exact typeAt

/-- A component that passes the check and is emitted declares the components and the signals of all
its port maps. The types agree if and only if ports whose names run together have the same type, and
no signal is first declared for a port that strays. -/
theorem emit_typesAgree_iff {g g' : Generator} {text : String} (library : g.library = some d)
    (passes : c.name ∈ (d.check top).order) (emits : g.emit c = (.ok text, g')) :
    text = renderLines (indentStep g.indent) (unitLines c g'.work) ∧ EntriesDeclared g'.work ∧
      (TypesAgree g'.work ↔
        (∀ p ∈ c.dottedPaths, ∀ q ∈ c.dottedPaths, p.RunsInto q →
          ∃ type, d.PathType c p type ∧ d.PathType c q type) ∧
        ∀ p ∈ c.dottedPaths, firstFor? c.dottedPaths (signalName p) = some p → ¬d.Strays c p) := by
  obtain ⟨lowers, written⟩ := lower_of_emit emits
  rw [library] at lowers
  refine ⟨written, fun s hs k hk => ?_, typesAgree_iff parsed known lowers passes⟩
  obtain ⟨p, hp, inst, rfl⟩ := (mem_connections_iff lowers hs).mp hk
  obtain ⟨i, port, hi, named, sub, hsub, type, hport, portNamed⟩ := exists_leadsTo known passes hp
  obtain rfl : i = s.inst := List.inj_on_of_nodup_map (parsed c known).instances_nodup hi
    (lower_socket lowers hs).1 (named.trans inst.symm)
  refine ⟨⟨sub, ?_, type, port, hport, portNamed⟩, (exists_wire_iff lowers).mpr ⟨p, hp, rfl⟩⟩
  exact (mem_subcomponents_iff lowers).mpr ⟨hsub, s.inst, hi, type.symm⟩

end Passing

/-- A component with a vector and an integer whose widths hang on one generic, one that binds the
generic, and one that does not. -/
def widthsSource : SourceFile where
  id := 0
  path := ""
  content := Bytes.ofString (
    "component R { int W; port { input vec d[W]; input int n[W]; } } " ++
    "component T { arch { R r = new R(W = 16); r.d <= r.n; } } " ++
    "component U { arch { R r = new R(); r.d <= r.n; } }")
  flags := 0

/-- The component that binds the generic, as it is read. -/
def widthsBound : Component where
  name := "T"
  nameSpan := ⟨0, 74, 75⟩
  span := ⟨0, 64, 121⟩
  file := 0
  items := [
    .arch ⟨⟨0, 78, 119⟩, "implementation", .zero, [
      .inst ⟨0, 85, 105⟩ ⟨"r", ⟨0, 87, 88⟩, "R", ⟨0, 85, 86⟩,
        [⟨⟨"W", ⟨0, 97, 98⟩⟩, .literal ⟨0, 101, 103⟩ ⟨.int, "16"⟩⟩]⟩,
      .assign ⟨0, 106, 117⟩ (.ref ⟨⟨"r", ⟨0, 106, 107⟩⟩, [⟨"d", ⟨0, 108, 109⟩⟩]⟩)
        (.ref ⟨⟨"r", ⟨0, 113, 114⟩⟩, [⟨"n", ⟨0, 115, 116⟩⟩]⟩)]⟩]
  widths := []

/-- The component that does not, as it is read. -/
def widthsUnbound : Component where
  name := "U"
  nameSpan := ⟨0, 132, 133⟩
  span := ⟨0, 122, 173⟩
  file := 0
  items := [
    .arch ⟨⟨0, 136, 171⟩, "implementation", .zero, [
      .inst ⟨0, 143, 157⟩ ⟨"r", ⟨0, 145, 146⟩, "R", ⟨0, 143, 144⟩, []⟩,
      .assign ⟨0, 158, 169⟩ (.ref ⟨⟨"r", ⟨0, 158, 159⟩⟩, [⟨"d", ⟨0, 160, 161⟩⟩]⟩)
        (.ref ⟨⟨"r", ⟨0, 165, 166⟩⟩, [⟨"n", ⟨0, 167, 168⟩⟩]⟩)]⟩]
  widths := []

/-- The source as it is read. -/
def widthsDesign : Design where
  components := [
    ⟨"R", ⟨0, 10, 11⟩, ⟨0, 0, 63⟩, 0, [
      .generic ⟨0, 14, 20⟩ ⟨.generic, "W", ⟨0, 18, 19⟩, .int, .scalar, ⟨0, 14, 19⟩⟩,
      .ports ⟨0, 21, 61⟩ [
        ⟨.port .input, "d", ⟨0, 38, 39⟩, .vec, .generic "W", ⟨0, 28, 42⟩⟩,
        ⟨.port .input, "n", ⟨0, 54, 55⟩, .int, .generic "W", ⟨0, 44, 58⟩⟩]],
      [("d", .generic "W")]⟩,
    widthsBound, widthsUnbound]
  distinct := by decide

theorem parse_widthsSource : Design.parse widthsSource false = .ok widthsDesign :=
  Design.parse_of_toOption (by decide +kernel)

theorem order_widthsDesign : (widthsDesign.check "").order = ["R", "T", "U"] := by cbv

theorem emit_typesAgree_iff_widthsBound :
    ∃ text g', (Generator.mk (some widthsDesign) 4 default).emit widthsBound = (.ok text, g') ∧
      EntriesDeclared g'.work ∧ TypesAgree g'.work := by
  obtain ⟨text, g', run⟩ : ∃ text g', (Generator.mk (some widthsDesign) 4 default).emit widthsBound =
      (.ok text, g') := emitted_of_isOk (by decide)
  have passes : widthsBound.name ∈ (widthsDesign.check "").order := by
    rw [order_widthsDesign]
    decide
  obtain ⟨-, declared, agree⟩ :=
    emit_typesAgree_iff (Design.parsed_of_parse parse_widthsSource) (by decide) rfl passes run
  refine ⟨text, g', run, declared, agree.mpr ⟨fun p hp q hq into => ?_, ?_⟩⟩
  · have distinct : ∀ p ∈ widthsBound.dottedPaths, ∀ q ∈ widthsBound.dottedPaths,
        signalName p = signalName q → p.names = q.names := by decide
    exact absurd (distinct p hp q hq into.signal) into.ne
  · rintro p - - ⟨i, port, ⟨hi, -, sub, hsub, type, hport, -⟩, -, name, width, unusable⟩
    have bound : ∀ i ∈ widthsBound.instances, ∀ sub ∈ widthsDesign.components, sub.name = i.type →
        ∀ port ∈ sub.ports, port.width.forInstance? i.bindings = some (.literal 16) := by
      decide +kernel
    have gives := bound i hi sub hsub type port hport
    rw [width] at gives
    exact unusable _ (Width.forInstance?_generic.mp gives)

/-- The component passes the check and is emitted, but an integer meets a signal of a single bit. -/
theorem widthsUnbound_not_typesAgree :
    widthsUnbound ∈ widthsDesign.components ∧ widthsUnbound.name ∈ (widthsDesign.check "").order ∧
      ∃ text g', (Generator.mk (some widthsDesign) 4 default).emit widthsUnbound = (.ok text, g') ∧
        ¬TypesAgree g'.work := by
  obtain ⟨text, g', run⟩ : ∃ text g',
      (Generator.mk (some widthsDesign) 4 default).emit widthsUnbound = (.ok text, g') :=
    emitted_of_isOk (by decide)
  have known : widthsUnbound ∈ widthsDesign.components := by decide
  have passes : widthsUnbound.name ∈ (widthsDesign.check "").order := by
    rw [order_widthsDesign]
    decide
  refine ⟨known, passes, text, g', run, fun agree => ?_⟩
  obtain ⟨-, straight⟩ := (typesAgree_iff (Design.parsed_of_parse parse_widthsSource) known
    (lower_of_emit run).1 passes).mp agree
  refine straight ⟨⟨"r", ⟨0, 165, 166⟩⟩, [⟨"n", ⟨0, 167, 168⟩⟩]⟩ (by decide) (by decide) ?_
  refine ⟨⟨"r", ⟨0, 145, 146⟩, "R", ⟨0, 143, 144⟩, []⟩,
    ⟨.port .input, "n", ⟨0, 54, 55⟩, .int, .generic "W", ⟨0, 44, 58⟩⟩, ?_, ?_⟩
  · exact ⟨by decide, rfl, _, List.mem_cons_self, by decide, by decide, by decide⟩
  · refine ⟨by decide, "W", rfl, ?_⟩
    rintro w ⟨value, bound, -⟩
    cases bound

end Vhdl
end CircuitCompiler
