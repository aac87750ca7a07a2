import CircuitCompiler.Proofs.PlacedExpr

/-!
# Components in their places

The parts of a component are read one behind the other, and so are the statements of its
architecture; what a part declares and what its expressions are made of lies in the part.

* `Stmt.Placed`, `Item.Placed`: a statement and a part of a component in their places;
* `Parse.ensures_manyUntil`: parts that are read one behind the other;
* `Parse.places_component`: components.
-/

namespace CircuitCompiler
open Reading NodeTree

namespace Reading

variable {f : SourceFile} {r r₁ r₂ : Reading}

/-- One declaration that is read. -/
theorem Brings.declaration {d : Decl} (onward : r.Onward f r₁)
    (widths : r₁.widths = r.widths ++ vectorsOf [d])
    (between : d.span.Between f r.last.stop r₁.last.stop) : r.Brings f r₁ ⟨[d], [], []⟩ where
  toOnward := onward
  widths := widths
  decls := by
    intro e he
    rw [List.mem_singleton.mp he]
    exact between
  apart := List.pairwise_singleton ..
  splices := by simp
  trees := by simp

/-- The same declaration in another role and with another place. -/
theorem Brings.redeclared {d e : Decl} {ts : List NodeTree} (h : r.Brings f r₁ ⟨[d], [], ts⟩)
    (name : e.name = d.name) (type : e.type = d.type) (width : e.width = d.width)
    (between : e.span.Between f r.last.stop r₁.last.stop) : r.Brings f r₁ ⟨[e], [], ts⟩ where
  toOnward := h.toOnward
  widths := by
    have same : vectorsOf [e] = vectorsOf [d] := by
      simp only [vectorsOf, List.filter_cons, List.filter_nil, type]
      split <;> simp only [List.map_cons, List.map_nil, name, width]
    rw [same]
    exact h.widths
  decls := by
    intro x hx
    rw [List.mem_singleton.mp hx]
    exact between
  apart := List.pairwise_singleton ..
  splices := by simp
  trees := h.trees

end Reading

/-! ## Parts in their places -/

/-- A declaration is read between `r` and `r'`, whatever its role. Its first token is the next one
of `r`. -/
structure Declarator.Placed (f : SourceFile) (r r' : Reading) (d : Declarator) : Prop where
  brings : ∀ role, r.Brings f r' ⟨[d.decl role], [], []⟩
  first : ∃ r₁, r.Took f r₁ r.current ∧ r₁.Onward f r'

/-- A value is read between `r` and `r'`. -/
structure Setting.Placed (f : SourceFile) (r r' : Reading) (v : Setting) : Prop where
  brings : r.Brings f r' ⟨[], [], [v.tree]⟩
  between : v.tree.span.Between f r.last.stop r'.last.stop

/-- A statement is read between `r` and `r'`. -/
structure Stmt.Placed (f : SourceFile) (r r' : Reading) (s : Stmt) : Prop where
  brings : r.Brings f r' ⟨s.decls, s.splices, s.trees⟩
  between : s.span.Between f r.last.stop r'.last.stop

/-- The statements of an architecture lie in it. -/
def Item.Holds (f : SourceFile) (it : Item) : Prop :=
  ∀ a, it.arch? = some a → ∀ s ∈ a.stmts, s.span.Between f a.span.start a.span.stop

/-- A part of a component is read between `r` and `r'`. -/
structure Item.Placed (f : SourceFile) (r r' : Reading) (it : Item) : Prop where
  brings : r.Brings f r' ⟨it.decls, it.splices, it.trees⟩
  between : it.span.Between f r.last.stop r'.last.stop
  holds : it.Holds f

theorem Setting.span_tree (v : Setting) : v.tree.span = v.span := by
  cases v <;> rfl

namespace Parse

variable {f : SourceFile} {r r₁ : Reading}

/-! ## Steps without matter -/

theorem goes_advance {t : Token} (laid : r.Laid f) (run : advance r = (.ok t, r₁)) :
    r.Goes f r₁ := by
  cases ht : r.tokens with
  | nil =>
    unfold advance at run
    rw [ht] at run
    cases run
    exact .refl laid
  | cons u rest => exact (took_advance laid (by rw [ht]; simp) run).toGoes

theorem goes_expect {κ : Kind} {wanted : Wanted} {t : Token} (laid : r.Laid f)
    (run : expect κ wanted r = (.ok t, r₁)) : r.Goes f r₁ :=
  goes_advance laid (advance_of_expect run).2

/-- A name that is declared was not declared before, and is then. -/
theorem goes_declare {name : String} {span : Span} (laid : r.Laid f) (named : IsName name)
    (run : declare name span r = (.ok (), r₁)) :
    r.Goes f r₁ ∧ name ∉ r.declared ∧ name ∈ r₁.declared := by
  unfold declare at run
  cases found : r.names.lookup name with
  | some first =>
    rw [found] at run
    cases run
  | none =>
    rw [found] at run
    cases run
    have fresh : name ∉ r.declared := by
      intro taken
      obtain ⟨entry, mem, same⟩ := List.mem_map.mp taken
      have differs := List.lookup_eq_none_iff.mp found entry mem
      rw [same] at differs
      simp at differs
    have grown : declared { r with names := r.names ++ [(name, span)] } = r.declared ++ [name] := by
      simp [declared]
    refine ⟨⟨⟨⟨laid.lies, laid.apart, laid.ahead, laid.file, laid.order, ?_, ?_⟩,
      Nat.le_refl _, Nat.le_refl _, ?_⟩, rfl⟩, fresh, ?_⟩ <;> rw [grown]
    · intro w hw
      exact List.mem_append_left _ (laid.known w hw)
    · intro n hn
      rcases List.mem_append.mp hn with hn | hn
      · exact laid.named n hn
      · rw [List.mem_singleton.mp hn]
        exact named
    · exact List.subset_append_left _ _
    · simp

theorem goes_widthValue (laid : r.Laid f) : Ensures (fun _ r' => r.Goes f r') widthValue r := by
  apply Ensures.look
  split
  · split
    · split
      · exact .succeed (.refl laid)
      · exact .fail _ _
    · exact .unexpected _
  · exact .succeed (.refl laid)
  · exact .unexpected _

theorem goes_optionalWidth (laid : r.Laid f) :
    Ensures (fun _ r' => r.Goes f r') optionalWidth r := by
  apply ensures_ifAt
  · intro _
    apply Ensures.bind
    intro t r₁ taken
    have opened := goes_advance laid taken
    apply Ensures.bind
    intro w r₂ read
    have value := goes_widthValue opened.laid w r₂ read
    apply Ensures.bind
    intro u r₃ taken
    have behind := goes_advance value.laid taken
    apply Ensures.bind
    intro v r₄ taken
    have closed := goes_expect behind.laid taken
    exact .succeed (((opened.trans value).trans behind).trans closed)
  · exact .succeed (.refl laid)

theorem goes_blockHead {kind : BlockKind} (laid : r.Laid f) :
    Ensures (fun _ r' => r.Goes f r') (blockHead kind) r := by
  have header : ∀ fuel {r : Reading}, r.Laid f →
      Ensures (fun _ r' => r.Goes f r') (blockHeader kind fuel) r := by
    intro fuel
    induction fuel with
    | zero =>
      intro r laid _ r' run
      cases run
    | succ fuel ih =>
      intro r laid
      have skip : Ensures (fun _ r' => r.Goes f r')
          (advance >>= fun _ => blockHeader kind fuel) r := by
        apply Ensures.bind
        intro t r₁ taken
        have first := goes_advance laid taken
        intro _ r' run
        exact first.trans (ih first.laid _ r' run)
      apply Ensures.look
      split
      · exact .succeed (.refl laid)
      iterate 4 exact .unexpected _
      exact skip
  apply Ensures.bind
  intro n r₁ run
  cases run
  exact header _ laid

theorem goes_blockRest {kind : BlockKind} {opening : Span} (laid : r.Laid f) :
    Ensures (fun _ r' => r.Goes f r') (blockRest kind opening) r := by
  have body : ∀ fuel depth {r : Reading}, r.Laid f →
      Ensures (fun _ r' => r.Goes f r') (blockBody kind opening fuel depth) r := by
    intro fuel
    induction fuel with
    | zero =>
      intro depth r laid
      cases depth with
      | zero => exact .succeed (.refl laid)
      | succ depth =>
        intro _ r' run
        cases run
    | succ fuel ih =>
      intro depth r laid
      cases depth with
      | zero => exact .succeed (.refl laid)
      | succ depth =>
        have skip : ∀ depth, Ensures (fun _ r' => r.Goes f r')
            (advance >>= fun _ => blockBody kind opening fuel depth) r := by
          intro depth
          apply Ensures.bind
          intro t r₁ taken
          have first := goes_advance laid taken
          intro _ r' run
          exact first.trans (ih depth first.laid _ r' run)
        have broken : Ensures (fun (_ : Unit) r' => r.Goes f r')
            (failHere fun _ _ => ⟨.unclosedBlock kind, opening⟩) r := by
          intro _ r' run
          unfold failHere at run
          split at run <;> cases run
        apply Ensures.look
        split
        · exact broken
        · exact broken
        · exact skip _
        · exact skip _
        · exact skip _
  apply Ensures.bind
  intro n r₁ run
  cases run
  exact body _ _ laid

/-! ## Declarations -/

/-- A vector enters its name and width behind those known before. -/
theorem brings_declareType {d : Decl} (laid : r.Laid f) (fresh : r.widths.has d.name = false)
    (declared : d.name ∈ r.declared)
    (run : declareType d.type d.name d.width r = (.ok (), r₁)) :
    r.Onward f r₁ ∧ r₁.widths = r.widths ++ vectorsOf [d] ∧ r₁.last = r.last := by
  unfold declareType at run
  by_cases vector : d.type = .vec
  · rw [if_pos vector] at run
    have entered : vectorsOf [d] = [(d.name, d.width)] := by simp [vectorsOf, vector]
    cases run
    have widths : r.widths.declare d.name d.width = r.widths ++ [(d.name, d.width)] := by
      simp [Widths.declare, fresh]
    rw [widths]
    refine ⟨⟨⟨laid.lies, laid.apart, laid.ahead, laid.file, laid.order, ?_, laid.named⟩,
      Nat.le_refl _, Nat.le_refl _, List.Subset.refl _⟩, by rw [entered], rfl⟩
    intro w hw
    rcases List.mem_append.mp hw with hw | hw
    · exact laid.known w hw
    · rw [List.mem_singleton.mp hw]
      exact declared
  · rw [if_neg vector] at run
    have entered : vectorsOf [d] = [] := by simp [vectorsOf, vector]
    cases run
    exact ⟨(Goes.refl laid).toOnward, by rw [entered, List.append_nil], rfl⟩

theorem places_typedName (laid : r.Laid f) :
    Ensures (fun d r' => d.Placed f r r') typedName r := by
  apply Ensures.look
  split
  · exact .unexpected _
  · next type found =>
    apply Ensures.bind
    intro t r₁ taken
    have word := took_advance laid (tokens_of_some found rfl rfl) taken
    apply Ensures.bind
    intro n r₂ read
    obtain ⟨title, kind⟩ := took_expect word.laid (by simp) (by simp) read
    apply Ensures.bind
    intro _ r₃ enter
    obtain ⟨entered, fresh, declared⟩ :=
      goes_declare title.laid (title.lies.name kind).2 enter
    apply Ensures.bind
    intro w r₄ read
    have size := goes_optionalWidth entered.laid w r₄ read
    apply Ensures.bind
    intro last r₅ run
    cases run
    apply Ensures.bind
    intro _ r₆ record
    apply Ensures.succeed
    -- the name is new, so it is not among the vectors known by then
    have before : r₄.widths = r.widths := by
      rw [size.widths, entered.widths, title.widths, word.widths]
    have unknown : r₄.widths.has n.name = false := by
      rw [before, ← word.widths, ← title.widths]
      refine Bool.eq_false_iff.mpr ?_
      intro known
      obtain ⟨v, hv, same⟩ := List.any_eq_true.mp known
      exact fresh (beq_iff_eq.mp same ▸ title.laid.known v hv)
    have since : r₁.Onward f r₄ := (title.toOnward.trans entered.toOnward).trans size.toOnward
    obtain ⟨-, between⟩ := word.since since
    have recorded (role : Role) := brings_declareType
      (d := ⟨role, n.name, n.span, type, w, t.span.cover r₄.last⟩) size.laid unknown
      (size.names declared) record
    rw [← word.token]
    refine ⟨?_, ?_⟩
    · intro role
      obtain ⟨onward, widths, same⟩ := recorded role
      rw [before] at widths
      refine .declaration ((word.toOnward.trans since).trans onward) widths ?_
      rw [same]
      exact between
    · obtain ⟨onward, -, -⟩ := recorded .generic
      refine ⟨r₁, ?_, since.trans onward⟩
      rw [← word.token]
      exact word

/-! ## One thing behind the other -/

section Loops

variable {α : Type} {matter : α → Matter} {span : α → Span} {good : α → Prop}

/-- Things are read between `r` and `r'`, with the matter and the places they have. -/
structure AllPlaced (f : SourceFile) (matter : α → Matter) (span : α → Span) (good : α → Prop)
    (r r' : Reading) (as : List α) : Prop where
  brings : r.Brings f r' (Matter.all matter as)
  each : ∀ a ∈ as, (span a).Between f r.last.stop r'.last.stop ∧ good a

theorem ensures_untilAt {close : Kind} {step : List α → Parse α}
    (round : ∀ done (r : Reading), r.Laid f → Ensures (fun a r' => r.Brings f r' (matter a) ∧
      (span a).Between f r.last.stop r'.last.stop ∧ good a) (step done) r) (fuel : Nat) :
    ∀ {r₀ r : Reading} {done : List α}, AllPlaced f matter span good r₀ r done →
      Ensures (fun as r' => AllPlaced f matter span good r₀ r' as ∧ r'.current.kind = close)
        (untilAt close step fuel done) r := by
  induction fuel with
  | zero =>
    intro r₀ r done _ as r' run
    cases run
  | succ fuel ih =>
    intro r₀ r done placed
    apply ensures_ifAt
    · intro closed
      exact .succeed ⟨placed, closed⟩
    · apply Ensures.bind
      intro a r₁ read
      obtain ⟨brings, between, fine⟩ := round done r placed.brings.laid a r₁ read
      refine ih ⟨?_, ?_⟩
      · rw [Matter.all_append]
        exact placed.brings.append brings
      · intro b hb
        rcases List.mem_append.mp hb with hb | hb
        · obtain ⟨before, fine⟩ := placed.each b hb
          exact ⟨before.mono (Nat.le_refl _) brings.stop, fine⟩
        · rw [List.mem_singleton.mp hb]
          exact ⟨between.mono placed.brings.stop (Nat.le_refl _), fine⟩

theorem ensures_manyUntil {close : Kind} {step : List α → Parse α} (laid : r.Laid f)
    (round : ∀ done (r : Reading), r.Laid f → Ensures (fun a r' => r.Brings f r' (matter a) ∧
      (span a).Between f r.last.stop r'.last.stop ∧ good a) (step done) r) :
    Ensures (fun as r' => AllPlaced f matter span good r r' as ∧ r'.current.kind = close)
      (manyUntil close step) r := by
  apply Ensures.bind
  intro n r₁ run
  cases run
  refine ensures_untilAt round _ ⟨?_, by simp⟩
  exact (Goes.refl laid).brings

end Loops

/-! ## Generics and ports -/

theorem places_generic (laid : r.Laid f) : Ensures (fun it r' => it.Placed f r r') generic r := by
  apply Ensures.look
  apply Ensures.bind
  intro d r₁ read
  have placed := places_typedName laid d r₁ read
  apply Ensures.bind
  intro t r₂ taken
  have semi := goes_expect (placed.brings .generic).laid taken
  apply Ensures.bind
  intro last r₃ run
  cases run
  apply Ensures.succeed
  obtain ⟨r₀, first, since⟩ := placed.first
  obtain ⟨-, between⟩ := first.since (since.trans semi.toOnward)
  refine ⟨(placed.brings .generic).goes semi, between, ?_⟩
  rintro a ⟨⟩

theorem places_port (laid : r.Laid f) :
    Ensures (fun d r' => r.Brings f r' ⟨[d], [], []⟩ ∧
      d.span.Between f r.last.stop r'.last.stop ∧ True) port r := by
  apply Ensures.look
  split
  · exact .unexpected _
  · next dir found =>
    apply Ensures.bind
    intro t r₁ taken
    have word := took_advance laid (tokens_of_some found rfl rfl) taken
    apply Ensures.bind
    intro d r₂ read
    have placed := places_typedName word.laid d r₂ read
    apply Ensures.bind
    intro u r₃ taken
    have semi := goes_expect (placed.brings .generic).laid taken
    apply Ensures.succeed
    have own := (placed.brings .generic).decls _ List.mem_cons_self
    have between := (word.between.cover own).mono (Nat.le_refl _) semi.stop
    rw [word.token] at between
    have brings := word.toGoes.then ((placed.brings (.port dir)).goes semi)
    exact ⟨brings.redeclared rfl rfl rfl between, between, trivial⟩

theorem places_ports (laid : r.Laid f) (more : r.tokens ≠ []) :
    Ensures (fun it r' => it.Placed f r r') ports r := by
  apply Ensures.bind
  intro word r₁ taken
  have opening := took_advance laid more taken
  apply Ensures.bind
  intro t r₂ taken
  have brace := goes_expect opening.laid taken
  apply Ensures.bind
  intro ds r₃ read
  have many : Ensures
      (fun ds r' => AllPlaced f (fun d => ⟨[d], [], []⟩) Decl.span (fun _ => True) r₂ r' ds ∧
        r'.current.kind = .symbol .rbrace)
      (manyUntil (.symbol .rbrace) fun _ => port) r₂ :=
    ensures_manyUntil brace.laid fun _ _ laid => places_port laid
  obtain ⟨all, closed⟩ := many ds r₃ read
  apply Ensures.bind
  intro close r₄ taken
  have ends := took_advance all.brings.laid (tokens_ne_nil closed (by simp) (by simp)) taken
  apply Ensures.succeed
  have since : r₁.Onward f r₃ := brace.toOnward.trans all.brings.toOnward
  have brings := (opening.toGoes.trans brace).then (all.brings.goes ends.toGoes)
  rw [Matter.all_declarations] at brings
  refine ⟨brings, (opening.upTo since ends).2, ?_⟩
  rintro a ⟨⟩

/-! ## Statements -/

theorem places_setting (laid : r.Laid f) :
    Ensures (fun v r' => v.Placed f r r') setting r := by
  apply Ensures.look
  split
  · next form found =>
    apply Ensures.bind
    intro t r₁ taken
    have took := took_advance laid (tokens_of_some found rfl rfl) taken
    rw [← took.token] at found ⊢
    exact .succeed ⟨Took.leaf took (nests_constant took.lies found), took.between⟩
  · split
    · next kind =>
      apply Ensures.bind
      intro t r₁ taken
      have took := took_advance laid (tokens_ne_nil kind (by simp) (by simp)) taken
      rw [← took.token] at kind ⊢
      exact .succeed ⟨Took.leaf took (nests_name took.lies kind), took.between⟩
    · exact .unexpected _

theorem places_plainDecl {role : Role} (plain : ∀ v, role ≠ .constant v) (laid : r.Laid f)
    (more : r.tokens ≠ []) : Ensures (fun s r' => s.Placed f r r') (plainDecl role) r := by
  apply Ensures.bind
  intro word r₁ taken
  have opening := took_advance laid more taken
  apply Ensures.bind
  intro d r₂ read
  have placed := places_typedName opening.laid d r₂ read
  apply Ensures.bind
  intro last r₃ run
  cases run
  apply Ensures.bind
  intro t r₄ taken
  have semi := goes_expect (placed.brings role).laid taken
  apply Ensures.succeed
  have since : r₁.Onward f r₂ := (placed.brings role).toOnward
  have between := (opening.since since).2.mono (Nat.le_refl _) semi.stop
  have brings := opening.toGoes.then ((placed.brings role).goes semi)
  have none : (Stmt.decl { d.decl role with span := word.span.cover r₂.last }).trees = [] := by
    cases role with
    | constant v => exact absurd rfl (plain v)
    | _ => rfl
  refine ⟨?_, between⟩
  rw [none]
  exact brings.redeclared rfl rfl rfl between

theorem places_constDecl (laid : r.Laid f) (more : r.tokens ≠ []) :
    Ensures (fun s r' => s.Placed f r r') constDecl r := by
  apply Ensures.bind
  intro word r₁ taken
  have opening := took_advance laid more taken
  apply Ensures.bind
  intro d r₂ read
  have placed := places_typedName opening.laid d r₂ read
  apply Ensures.bind
  intro t r₃ taken
  have equals := goes_expect (placed.brings .generic).laid taken
  apply Ensures.bind
  intro value r₄ read
  have constant := places_setting equals.laid value r₄ read
  apply Ensures.bind
  intro last r₅ run
  cases run
  apply Ensures.bind
  intro u r₆ taken
  have semi := goes_expect constant.brings.laid taken
  apply Ensures.succeed
  have brings := opening.toGoes.then
    (((placed.brings (.constant value)).goes equals).append (constant.brings.goes semi))
  have since : r₁.Onward f r₄ :=
    ((placed.brings .generic).toOnward.trans equals.toOnward).trans constant.brings.toOnward
  have between := (opening.since since).2.mono (Nat.le_refl _) semi.stop
  exact ⟨brings.redeclared rfl rfl rfl between, between⟩

/-- Bindings are read between `r` and `r'`; there is at least one. -/
def BindingsPlaced (f : SourceFile) (r r' : Reading) (bs : List Binding) : Prop :=
  ∃ b rest, bs = b :: rest ∧ r.Brings f r' ⟨[], [], [Binding.treeOver b rest]⟩ ∧
    (Binding.treeOver b rest).span.Between f r.last.stop r'.last.stop

theorem places_bindingsUpTo (fuel : Nat) : ∀ {r : Reading}, r.Laid f →
    Ensures (fun bs r' => BindingsPlaced f r r' bs) (bindingsUpTo fuel) r := by
  induction fuel with
  | zero =>
    intro r _ bs r' run
    cases run
  | succ fuel ih =>
    intro r laid
    apply Ensures.bind
    intro n r₁ read
    obtain ⟨name, kind⟩ := took_expect laid (by simp) (by simp) read
    apply Ensures.bind
    intro t r₂ taken
    have equals := goes_expect name.laid taken
    apply Ensures.bind
    intro value r₃ read
    have given := places_setting equals.laid value r₃ read
    -- the joint of the binding reaches from its name to its value
    have later := given.between.mono equals.stop (Nat.le_refl _)
    have span := name.between.cover later
    rw [value.span_tree] at span
    have leaf := Took.leaf name (nests_name name.lies kind)
    let b : Binding := ⟨⟨n.name, n.span⟩, value⟩
    have brings : r.Brings f r₃ ⟨[], [], [b.tree]⟩ := by
      refine ((leaf.goes equals).append given.brings).node ?_
      show (NodeTree.node _ (n.span.cover value.span) _).WellPlaced f.content
      rw [← value.span_tree]
      exact wellPlaced_pair (t := .node (.name n.name) n.span []) name.between later rfl
    have between : b.tree.span.Between f r.last.stop r₃.last.stop := span
    apply ensures_ifAt
    · intro comma
      apply Ensures.bind
      intro u r₄ taken
      have sep := took_advance brings.laid (tokens_ne_nil comma (by simp) (by simp)) taken
      apply Ensures.bind
      intro bs r₅ read
      obtain ⟨b', rest, rfl, behind, places⟩ := ih sep.laid bs r₅ read
      apply Ensures.succeed
      have after := places.mono sep.stop (Nat.le_refl _)
      refine ⟨b, b' :: rest, rfl, ?_, between.cover after⟩
      exact ((brings.goes sep.toGoes).append behind).node (wellPlaced_pair between after rfl)
    · exact .succeed ⟨b, [], rfl, brings, between⟩

theorem places_bindings (laid : r.Laid f) :
    Ensures (fun bs r' => r.Brings f r' ⟨[], [], Binding.trees bs⟩) bindings r := by
  apply ensures_ifAt
  · intro _
    exact .succeed (Goes.refl laid).brings
  · apply Ensures.bind
    intro n r₁ run
    cases run
    intro bs r' read
    obtain ⟨b, rest, rfl, brings, -⟩ := places_bindingsUpTo _ laid bs r' read
    exact brings

theorem places_instanceOf {r₀ : Reading} {type : Segment}
    (leaf : r₀.Brings f r ⟨[], [], [.node (.name type.name) type.span []]⟩)
    (between : type.span.Between f r₀.last.stop r.last.stop) (kind : r.current.kind = .ident) :
    Ensures (fun s r' => s.Placed f r₀ r') (instanceOf type) r := by
  apply Ensures.bind
  intro n r₁ taken
  have name := took_advance leaf.laid (tokens_ne_nil kind (by simp) (by simp)) taken
  rw [← name.token] at kind
  apply Ensures.bind
  intro _ r₂ enter
  obtain ⟨entered, -, -⟩ := goes_declare name.laid (name.lies.name kind).2 enter
  apply Ensures.bind
  intro t r₃ taken
  have equals := goes_expect entered.laid taken
  apply Ensures.bind
  intro u r₄ taken
  have word := goes_expect equals.laid taken
  apply Ensures.bind
  intro built r₅ taken
  have again := goes_expect word.laid taken
  split
  · apply Ensures.bind
    intro v r₆ taken
    have opening := goes_expect again.laid taken
    apply Ensures.bind
    intro bs r₇ read
    have list := places_bindings opening.laid bs r₇ read
    apply Ensures.bind
    intro w r₈ taken
    have closing := goes_expect list.laid taken
    apply Ensures.bind
    intro semi r₉ read
    obtain ⟨ends, -⟩ := took_expect closing.laid (by simp) (by simp) read
    apply Ensures.succeed
    have front := ((((name.toGoes.trans entered).trans equals).trans word).trans again).trans
      opening
    have back := closing.trans ends.toGoes
    refine ⟨(leaf.goes front).append (list.goes back), ?_⟩
    have steps : r.Onward f r₈ := (front.toOnward.trans list.toOnward).trans closing.toOnward
    exact between.cover (ends.between.mono steps.stop (Nat.le_refl _))
  · exact .fail _ _

theorem places_assignTo {r₀ : Reading} {left : Expr} (target : left.Placed f r₀ r)
    (more : r.tokens ≠ []) : Ensures (fun s r' => s.Placed f r₀ r') (assignTo left) r := by
  apply Ensures.bind
  intro t r₁ taken
  have arrow := took_advance target.brings.laid more taken
  apply Ensures.bind
  intro right r₂ read
  have value := (places_expression r₁ arrow.laid right r₂ read).after arrow.toGoes
  apply Ensures.bind
  intro semi r₃ read
  obtain ⟨ends, -⟩ := took_expect value.brings.laid (by simp) (by simp) read
  apply Ensures.succeed
  refine ⟨(Brings.node (target.brings.append value.brings) ?_).goes ends.toGoes, ?_⟩
  · rw [← left.span_tree, ← right.span_tree]
    exact wellPlaced_pair target.between value.between rfl
  · have wide := target.between.cover (ends.between.mono value.brings.stop (Nat.le_refl _))
    rw [left.span_tree] at wide
    exact wide

theorem places_assignOrInstance (laid : r.Laid f) :
    Ensures (fun s r' => s.Placed f r r') assignOrInstance r := by
  apply Ensures.bind
  intro left r₁ read
  have placed := places_target r laid left r₁ read
  apply Ensures.look
  split
  · next arrow => exact places_assignTo placed (tokens_ne_nil arrow (by simp) (by simp))
  · next kind =>
    split
    · exact places_instanceOf placed.brings placed.between kind
    · exact .fail _ _
  · exact .unexpected _

theorem places_block {kind : BlockKind} (laid : r.Laid f) (more : r.tokens ≠ []) :
    Ensures (fun s r' => s.Placed f r r') (block kind) r := by
  apply Ensures.bind
  intro word r₁ taken
  have opening := took_advance laid more taken
  apply Ensures.bind
  intro _ r₂ read
  have head := goes_blockHead opening.laid _ r₂ read
  apply Ensures.bind
  intro brace r₃ taken
  have opened := goes_advance head.laid taken
  apply Ensures.bind
  intro _ r₄ read
  have rest := goes_blockRest opened.laid _ r₄ read
  apply Ensures.bind
  intro last r₅ run
  cases run
  apply Ensures.bind
  intro body r₆ run
  cases run
  apply Ensures.succeed
  have since := (head.trans opened).trans rest
  exact ⟨(opening.toGoes.trans since).brings, (opening.since since.toOnward).2⟩

theorem places_stmt (laid : r.Laid f) : Ensures (fun s r' => s.Placed f r r') stmt r := by
  have word : ∀ {w : Keyword}, r.current.kind = .keyword w → r.tokens ≠ [] :=
    fun kind => tokens_ne_nil kind (by simp) (by simp)
  apply Ensures.look
  split
  · next kind => exact places_plainDecl (by simp) laid (word kind)
  · next kind => exact places_plainDecl (by simp) laid (word kind)
  · next kind => exact places_constDecl laid (word kind)
  · next kind => exact places_block laid (word kind)
  · next kind => exact places_block laid (word kind)
  · next kind => exact places_block laid (word kind)
  · exact places_assignOrInstance laid
  · exact .unexpected _

/-! ## Architectures and items -/

/-- The name in front of an architecture is the next token, or nothing is taken. -/
theorem places_archName (laid : r.Laid f) :
    Ensures (fun _ r' => r' = r ∨ r.Took f r' r.current) archName r := by
  have named : r.tokens ≠ [] → Ensures (fun (_ : Option Segment) r' => r' = r ∨
      r.Took f r' r.current)
      (advance >>= fun _ => succeed (some ⟨r.current.name, r.current.span⟩)) r := by
    intro more
    apply Ensures.bind
    intro t r₁ taken
    have took := took_advance laid more taken
    apply Ensures.succeed
    right
    rw [← took.token]
    exact took
  apply Ensures.look
  split
  · next kind => exact named (tokens_ne_nil kind (by simp) (by simp))
  · next kind => exact named (tokens_ne_nil kind (by simp) (by simp))
  · next kind => exact named (tokens_ne_nil kind (by simp) (by simp))
  · exact .succeed (.inl rfl)

/-- The matter of a statement. -/
def stmtMatter (s : Stmt) : Matter := ⟨s.decls, s.splices, s.trees⟩

/-- The matter of a part of a component. -/
def itemMatter (it : Item) : Matter := ⟨it.decls, it.splices, it.trees⟩

theorem places_arch (laid : r.Laid f) : Ensures (fun it r' => it.Placed f r r') arch r := by
  apply Ensures.look
  apply Ensures.bind
  intro name? r₁ read
  have name := places_archName laid name? r₁ read
  have before : r.Goes f r₁ := by
    rcases name with rfl | took
    · exact .refl laid
    · exact took.toGoes
  apply Ensures.bind
  intro word r₂ read
  obtain ⟨keyword, -⟩ := took_expect before.laid (by simp) (by simp) read
  -- the first token of the architecture is its name or the word
  obtain ⟨r', first, since⟩ : ∃ r', r.Took f r' r.current ∧ r'.Onward f r₂ := by
    rcases name with rfl | took
    · exact ⟨r₂, keyword.token ▸ keyword, (Goes.refl keyword.laid).toOnward⟩
    · exact ⟨r₁, took, keyword.toOnward⟩
  apply Ensures.bind
  intro brace r₃ taken
  have opened := goes_expect keyword.laid taken
  apply Ensures.bind
  intro stmts r₄ read
  have round : ∀ (_ : List Stmt) (r : Reading), r.Laid f → Ensures (fun s r' =>
      r.Brings f r' (stmtMatter s) ∧ s.span.Between f r.last.stop r'.last.stop ∧ True) stmt r := by
    intro _ r laid s r' run
    have placed := places_stmt laid s r' run
    exact ⟨placed.brings, placed.between, trivial⟩
  obtain ⟨all, closed⟩ := ensures_manyUntil opened.laid round stmts r₄ read
  apply Ensures.bind
  intro close r₅ taken
  have ends := took_advance all.brings.laid (tokens_ne_nil closed (by simp) (by simp)) taken
  apply Ensures.succeed
  have quiet := (before.trans keyword.toGoes).trans opened
  obtain ⟨both, between⟩ :=
    first.upTo ((since.trans opened.toOnward).trans all.brings.toOnward) ends
  refine ⟨quiet.then (all.brings.goes ends.toGoes), between, ?_⟩
  rintro a ⟨⟩ s hs
  obtain ⟨inside, -⟩ := all.each s hs
  show s.span.Between f (r.current.span.cover close.span).start _
  rw [both]
  exact inside.mono (Nat.le_trans first.between.start_le (since.trans opened.toOnward).stop)
    ends.stop

theorem places_item {name : String} {done : List Item} (laid : r.Laid f) :
    Ensures (fun it r' => it.Placed f r r') (item name done) r := by
  apply Ensures.look
  split
  iterate 4 exact places_generic laid
  · next kind =>
    split
    · exact .fail _ _
    · exact places_ports laid (tokens_ne_nil kind (by simp) (by simp))
  iterate 4
    split
    · exact .fail _ _
    · exact places_arch laid
  exact .unexpected _

end Parse

/-! ## Components -/

/-- The tokens of a reading are those of the file, and nothing is declared. -/
structure Reading.Opens (f : SourceFile) (r : Reading) : Prop where
  lies : ∀ t ∈ r.tokens, t.Lies f
  apart : r.tokens.Pairwise fun t u => t.span.stop ≤ u.span.start
  names : r.names = []
  widths : r.widths = []

/-- A component of the file: its parts and their statements lie in it, its vectors are those it
declares, bits are taken of vectors declared before, and its expressions nest. -/
structure Component.Placed (f : SourceFile) (c : Component) : Prop where
  between : c.span.Between f 0 f.content.length
  nameSpan : c.nameSpan.Between f c.span.start c.span.stop
  items : ∀ it ∈ c.items, it.span.Between f c.span.start c.span.stop ∧ it.Holds f
  widths : c.widths = vectorsOf c.decls
  apart : c.decls.Pairwise fun d e => d.span.stop ≤ e.span.start
  splices : ∀ p ∈ c.splices, p.tail = [] ∧
    ∃ d ∈ c.decls, d.type = .vec ∧ d.name = p.text ∧ d.span.stop ≤ p.span.start
  trees : ∀ t ∈ c.trees, t.Nests f.content

namespace Parse

variable {f : SourceFile} {r : Reading}

/-- Before the first token of a component nothing is taken that it would have to stand behind. -/
theorem expect_from {κ : Kind} {wanted : Wanted} {t : Token} {r₁ : Reading} (more : κ ≠ .eof)
    (valid : κ ≠ .invalid) (start : Span) (run : expect κ wanted r = (.ok t, r₁)) :
    expect κ wanted { r with last := start } = (.ok t, r₁) := by
  obtain ⟨kind, taken⟩ := advance_of_expect run
  obtain ⟨u, rest, ht⟩ := List.exists_cons_of_ne_nil (tokens_ne_nil kind more valid)
  have same : Reading.current { r with last := start } = r.current := rfl
  unfold advance at taken
  rw [ht] at taken
  unfold expect advance
  rw [same, if_pos kind, ht]
  exact taken

/-- A component starts in place, behind a token that ends where the file begins. -/
theorem laid_of_opens (opens : r.Opens f) : Laid f { r with last := .point f.id 0 } := by
  have none : r.declared = [] := by rw [Reading.declared, opens.names, List.map_nil]
  refine ⟨opens.lies, opens.apart, fun _ _ => Nat.zero_le _, rfl, Nat.le_refl _, ?_, ?_⟩
  · show ∀ w ∈ r.widths, w.1 ∈ r.declared
    rw [opens.widths]
    rintro w ⟨⟩
  · show ∀ n ∈ r.declared, IsName n
    rw [none]
    rintro n ⟨⟩

theorem places_component {c : Component} {r' : Reading} (opens : r.Opens f)
    (run : component f.id r = (.ok c, r')) : c.Placed f ∧ r'.Laid f := by
  have nothing : Reading.widths { r with last := .point f.id 0 } = [] := opens.widths
  obtain ⟨word, r₁, read, run⟩ := andThen_ok run
  obtain ⟨opening, -⟩ := took_expect (laid_of_opens opens) (by simp) (by simp)
    (expect_from (by simp) (by simp) _ read)
  obtain ⟨name, r₂, read, run⟩ := andThen_ok run
  obtain ⟨title, -⟩ := took_expect opening.laid (by simp) (by simp) read
  obtain ⟨brace, r₃, taken, run⟩ := andThen_ok run
  have opened := goes_expect title.laid taken
  obtain ⟨items, r₄, read, run⟩ := andThen_ok run
  have round : ∀ (done : List Item) (r : Reading), r.Laid f → Ensures (fun it r' =>
      r.Brings f r' (itemMatter it) ∧ it.span.Between f r.last.stop r'.last.stop ∧ it.Holds f)
      (item name.name done) r := by
    intro done r laid it r' run
    have placed := places_item laid it r' run
    exact ⟨placed.brings, placed.between, placed.holds⟩
  obtain ⟨all, closed⟩ := ensures_manyUntil opened.laid round items r₄ read
  obtain ⟨close, r₅, taken, run⟩ := andThen_ok run
  have ends := took_advance all.brings.laid (tokens_ne_nil closed (by simp) (by simp)) taken
  cases run
  have quiet := (opening.toGoes.trans title.toGoes).trans opened
  have brings := quiet.then (all.brings.goes ends.toGoes)
  have since : r₁.Onward f r₃ := title.toOnward.trans opened.toOnward
  obtain ⟨both, between⟩ := opening.upTo (since.trans all.brings.toOnward) ends
  have front : word.span.start ≤ r₁.last.stop := opening.between.start_le
  have upTo : r'.last.stop ≤ f.content.length := by
    rw [ends.last]
    exact ends.lies.between.stop
  refine ⟨⟨between.mono (Nat.le_refl _) upTo, ?_, ?_, ?_, brings.apart, ?_, brings.trees⟩,
    brings.laid⟩
  · show name.span.Between f (word.span.cover close.span).start (word.span.cover close.span).stop
    rw [both]
    have rest := (opened.toOnward.trans all.brings.toOnward).trans ends.toOnward
    exact title.between.mono front rest.stop
  · intro it hit
    obtain ⟨inside, holds⟩ := all.each it hit
    refine ⟨?_, holds⟩
    show it.span.Between f (word.span.cover close.span).start (word.span.cover close.span).stop
    rw [both]
    exact inside.mono (Nat.le_trans front since.stop) ends.stop
  · have widths := brings.widths
    rw [nothing, List.nil_append] at widths
    exact widths
  · intro p hp
    obtain ⟨plain, -, known⟩ := brings.splices p hp
    refine ⟨plain, ?_⟩
    rcases known with before | declared
    · rw [nothing] at before
      cases before
    · exact declared

end Parse

/-- The components of a design that was read from a file lie in it as they should. -/
theorem Design.placed_of_parse {f : SourceFile} {keepText : Bool} {d : Design}
    (h : Design.parse f keepText = .ok d) : ∀ c ∈ d.components, c.Placed f := by
  -- each round leaves tokens of the file
  have round : ∀ (r : Reading) c r', r.fresh.Opens f →
      Parse.component f.id r.fresh = (.ok c, r') → c.Placed f ∧ r'.fresh.Opens f := by
    intro r c r' opens read
    obtain ⟨placed, laid⟩ := Parse.places_component opens read
    exact ⟨placed, laid.lies, laid.apart, rfl, rfl⟩
  refine Design.forall_of_parseFrom round ⟨?_, ?_, rfl, rfl⟩ (fun _ none => by cases none) h
  · exact Stream.scan_lies (.ofFile f)
  · exact Stream.scan_apart _ _ _

end CircuitCompiler
