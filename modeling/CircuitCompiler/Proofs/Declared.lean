import CircuitCompiler.Proofs.Chunks

/-!
# The names of a component

A name is declared once a component: each declaration of the grammar enters its name into the names
so far, which must not have it yet, and nothing else touches them. So the names that stand in the
tree of a component are the ones that were entered, in source order and without repetition.

* `Parse.Declares`: which names a step enters, with a rule for each way to build a step;
* `Parse.declares_component`: the names entered for a component are those of its tree;
* `Component.Parsed.declared_nodup`: they are distinct, and so are the names of the instances.
-/

namespace CircuitCompiler

/-- The names that a statement declares. -/
def Stmt.declared : Stmt → List String
  | decl d => [d.name]
  | inst _ i => [i.name]
  | assign .. | block .. => []

/-- The names that a part of a component declares, in source order. -/
def Item.declared : Item → List String
  | generic _ d => [d.name]
  | ports _ ds => ds.map (·.name)
  | arch a => a.stmts.flatMap Stmt.declared

/-- The names that a component declares, in source order. -/
def Component.declared (c : Component) : List String := c.items.flatMap Item.declared

/-- The names declared so far. -/
def Reading.declared (r : Reading) : List String := r.names.map (·.1)

namespace Parse

variable {α β : Type}

/-! ## Entering names -/

/-- Where `p` succeeds, it enters new names behind those declared so far, and the result and these
names are as `post` says. -/
def Declares (post : α → List String → Prop) (p : Parse α) : Prop :=
  ∀ r a r', p r = (.ok a, r') → ∃ new, r'.declared = r.declared ++ new ∧
    (r.declared.Nodup → r'.declared.Nodup) ∧ post a new

/-- The step declares nothing. -/
def Quiet (p : Parse α) : Prop := Declares (fun _ new => new = []) p

theorem Quiet.of_names {p : Parse α} (h : ∀ r, (p r).2.names = r.names) : Quiet p := by
  intro r a r' run
  have same : r'.declared = r.declared := by
    have here := h r
    rw [run] at here
    exact congrArg (List.map (·.1)) here
  exact ⟨[], by rw [same, List.append_nil], fun distinct => by rwa [same], rfl⟩

namespace Declares

variable {post : β → List String → Prop}

theorem bind {mid : α → List String → Prop} {p : Parse α} {f : α → Parse β}
    (first : Declares mid p)
    (second : ∀ a new, mid a new → Declares (fun b new' => post b (new ++ new')) (f a)) :
    Declares post (p >>= f) := by
  intro r b r'' run
  obtain ⟨a, r', hp, hf⟩ := andThen_ok run
  obtain ⟨new, enters, distinct, done⟩ := first r a r' hp
  obtain ⟨new', enters', distinct', done'⟩ := second a new done r' b r'' hf
  refine ⟨new ++ new', ?_, fun h => distinct' (distinct h), done'⟩
  rw [enters', enters, List.append_assoc]

/-- The second step alone counts, where the first declares nothing. -/
theorem after {p : Parse α} {f : α → Parse β} (first : Quiet p)
    (second : ∀ a, Declares post (f a)) : Declares post (p >>= f) := by
  refine bind first ?_
  rintro a _ rfl
  exact second a

theorem succeed {b : β} (h : post b []) : Declares post (Parse.succeed b) := by
  intro r b' r' run
  cases run
  exact ⟨[], (List.append_nil _).symm, id, h⟩

theorem never {p : Parse β} (h : ∀ r b r', p r ≠ (.ok b, r')) : Declares post p :=
  fun r b r' run => absurd run (h r b r')

theorem fail (cause : Cause) (span : Span) : Declares post (Parse.fail cause span) :=
  never fun _ _ _ run => by cases run

theorem failHere (cause : Reading → Token → CompileError) :
    Declares post (Parse.failHere cause) := by
  refine never fun r b r' run => ?_
  unfold Parse.failHere at run
  split at run <;> cases run

theorem unexpected (wanted : Wanted) : Declares post (Parse.unexpected wanted) := failHere _

/-- A step may look at where it is. -/
theorem look {f : Reading → Parse β} (h : ∀ r, Declares post (f r)) :
    Declares post (fun r => f r r) :=
  fun r b r' run => h r r b r' run

theorem outOfFuel : Declares post (fun r => Parse.fail .parseFailed r.last r) :=
  look fun r => fail _ r.last

theorem withScope {scope : Scope} {p : Parse β} (h : Declares post p) :
    Declares post (Parse.withScope scope p) := by
  intro r b r' run
  unfold Parse.withScope at run
  cases inner : p { r with scope } with
  | mk result r₁ =>
    rw [inner] at run
    cases run
    exact h { r with scope } b r₁ inner

theorem ifAt {κ : Kind} {yes no : Parse β} (hy : Declares post yes) (hn : Declares post no) :
    Declares post (Parse.isAt κ >>= fun b => if b = true then yes else no) :=
  after (.of_names fun _ => rfl) fun b => by split <;> assumption

end Declares

/-! ## Single steps -/

theorem quiet_peek : Quiet peek := .of_names fun _ => rfl

theorem quiet_lastSpan : Quiet lastSpan := .of_names fun _ => rfl

theorem quiet_remaining : Quiet remaining := .of_names fun _ => rfl

theorem quiet_advance : Quiet advance := by
  refine .of_names fun r => ?_
  unfold advance
  split <;> rfl

theorem quiet_expect {κ : Kind} {wanted : Wanted} : Quiet (expect κ wanted) := by
  intro r t r' run
  unfold expect at run
  split at run
  · exact quiet_advance r t r' run
  · have never : Quiet (unexpected wanted : Parse Token) := .unexpected wanted
    exact never r t r' run

theorem quiet_sourceBetween {start stop : Nat} : Quiet (sourceBetween start stop) :=
  .of_names fun _ => rfl

theorem declares_declare {name : String} {span : Span} :
    Declares (fun _ new => new = [name]) (declare name span) := by
  intro r a r' run
  unfold declare at run
  split at run
  · cases run
  · next free =>
    cases run
    refine ⟨[name], ?_, fun distinct => ?_, rfl⟩
    · simp [Reading.declared]
    · rw [Reading.declared, List.map_append, List.nodup_append]
      refine ⟨distinct, by simp, ?_⟩
      rintro taken before _ new rfl
      obtain ⟨entry, mem, rfl⟩ := List.mem_map.mp before
      rw [List.map_singleton, List.mem_singleton] at new
      -- the lookup that guards the entry found none of its name
      have other := List.lookup_eq_none_iff.mp free entry mem
      rw [new, bne_self_eq_false] at other
      cases other

/-- A loop enters what its rounds enter. -/
theorem declares_untilAt {close : Kind} {step : List α → Parse α} {names : α → List String}
    (round : ∀ done, Declares (fun a new => new = names a) (step done)) (fuel : Nat) :
    ∀ done, Declares (fun as new => as.flatMap names = done.flatMap names ++ new)
      (untilAt close step fuel done) := by
  induction fuel with
  | zero => exact fun _ => .outOfFuel
  | succ fuel ih =>
    intro done
    refine .ifAt (.succeed (List.append_nil _).symm) (.bind (round done) ?_)
    rintro a _ rfl r as r' run
    obtain ⟨new, enters, distinct, names'⟩ := ih (done ++ [a]) r as r' run
    exact ⟨new, enters, distinct, by simp [names']⟩

theorem declares_manyUntil {close : Kind} {step : List α → Parse α} {names : α → List String}
    (round : ∀ done, Declares (fun a new => new = names a) (step done)) :
    Declares (fun as new => new = as.flatMap names) (manyUntil close step) := by
  refine .after quiet_remaining fun n r as r' run => ?_
  obtain ⟨new, enters, distinct, same⟩ := declares_untilAt round (n + 1) [] r as r' run
  exact ⟨new, enters, distinct, same.symm⟩

/-! ## Expressions -/

theorem quiet_leftAssoc {next : Parse Expr} {op? : Kind → Option Operator} (h : Quiet next) :
    Quiet (leftAssoc next op?) := by
  have rounds : ∀ fuel left, Quiet (leftRounds next op? fuel left) := by
    intro fuel
    induction fuel with
    | zero => exact fun _ => .outOfFuel
    | succ fuel ih =>
      intro left
      refine .after quiet_peek fun t => ?_
      split
      · exact .succeed rfl
      · exact .after quiet_advance fun _ => .after h fun right => ih _
  exact .after h fun left => .after quiet_remaining fun n => rounds _ _

theorem quiet_path : Quiet path := by
  have segments : ∀ fuel, Quiet (segments fuel) := by
    intro fuel
    induction fuel with
    | zero => exact .outOfFuel
    | succ fuel ih =>
      refine .after quiet_expect fun t => .ifAt ?_ (.succeed rfl)
      exact .after quiet_advance fun _ => .after ih fun rest => .succeed rfl
  exact .after quiet_remaining fun n => segments _

section Expressions

variable {expr : Parse Expr} (h : Quiet expr)

include h

theorem quiet_splice (target : Path) : Quiet (splice expr target) := by
  have bounds : Quiet (bounds expr) := by
    refine .after quiet_advance fun _ => .after h fun high => .ifAt ?_ (.succeed rfl)
    exact .after quiet_advance fun _ => .after h fun low => .succeed rfl
  refine .after (.of_names fun _ => rfl) fun vector => ?_
  split
  · refine .after (.withScope bounds) ?_
    rintro ⟨high, low?⟩
    refine .after quiet_expect fun close => ?_
    cases low? with
    | none => exact .succeed rfl
    | some low => exact .succeed rfl
  · exact .fail _ _

theorem quiet_reference : Quiet (reference expr) :=
  .after quiet_path fun target => .ifAt (quiet_splice h target) (.succeed rfl)

theorem quiet_atom : Quiet (atom expr) := by
  refine .after quiet_peek fun t => ?_
  split
  · exact .after quiet_advance fun _ => .succeed rfl
  · split
    · refine .withScope (.after quiet_advance fun opening => .after h fun inner => ?_)
      exact .after quiet_expect fun close => .succeed rfl
    · split
      · exact quiet_reference h
      · exact .unexpected _

omit h in
theorem quiet_behindUnary {op : UnaryOperator} {operand : Parse Expr} (h : Quiet operand) :
    Quiet (behindUnary op operand) :=
  .after quiet_advance fun _ => .after h fun _ => .succeed rfl

theorem quiet_sum : Quiet (sum expr) := by
  have power : Quiet (power expr) := quiet_leftAssoc (quiet_atom h)
  have factor : Quiet (factor expr) := by
    refine .after quiet_peek fun t => ?_
    split
    · exact quiet_behindUnary power
    · exact quiet_behindUnary power
    · exact power
  exact quiet_leftAssoc (quiet_leftAssoc factor)

theorem quiet_relation : Quiet (relation expr) := by
  have comparison : Quiet (comparison expr) := by
    refine .after quiet_peek fun t => ?_
    split
    · exact .after quiet_advance fun _ => .succeed rfl
    · refine .after (quiet_sum h) fun left => .after quiet_peek fun t => ?_
      split
      · exact .succeed rfl
      · exact .after quiet_advance fun _ => .after (quiet_sum h) fun right => .succeed rfl
  refine .after (.of_names fun _ => rfl) fun scope => ?_
  split
  · exact comparison
  · exact .withScope comparison

theorem quiet_choice : Quiet (choice expr) := by
  have boolFactor : Quiet (boolFactor expr) := by
    refine .after quiet_peek fun t => ?_
    split
    · exact quiet_behindUnary (quiet_relation h)
    · exact quiet_behindUnary (quiet_relation h)
    · exact quiet_relation h
  refine .after (quiet_leftAssoc boolFactor) fun cond => .ifAt ?_ (.succeed rfl)
  refine .after quiet_advance fun _ => .after h fun yes => .after quiet_expect fun _ => ?_
  exact .after h fun no => .succeed rfl

end Expressions

theorem quiet_expression : Quiet expression := by
  have nested : ∀ depth, Quiet (expressionUpTo depth) := by
    intro depth
    induction depth with
    | zero => exact .outOfFuel
    | succ depth ih => exact quiet_choice ih
  exact .after quiet_remaining fun n => nested _

/-! ## Declarations -/

theorem quiet_optionalWidth : Quiet optionalWidth := by
  have value : Quiet widthValue := by
    refine .after quiet_peek fun t => ?_
    split
    · split
      · split
        · exact .succeed rfl
        · exact .fail _ _
      · exact .unexpected _
    · exact .succeed rfl
    · exact .unexpected _
  refine .ifAt ?_ (.succeed rfl)
  refine .after quiet_advance fun _ => .after value fun w => .after quiet_advance fun _ => ?_
  exact .after quiet_expect fun _ => .succeed rfl

theorem quiet_declareType {type : DataType} {name : String} {w : Width} :
    Quiet (declareType type name w) := by
  unfold declareType
  split
  · exact .of_names fun _ => rfl
  · exact .succeed rfl

theorem declares_typedName : Declares (fun d new => new = [d.name]) typedName := by
  refine .after quiet_peek fun t => ?_
  split
  · exact .unexpected _
  · refine .after quiet_advance fun _ => .after quiet_expect fun n => .bind declares_declare ?_
    rintro _ _ rfl
    refine .after quiet_optionalWidth fun w => .after quiet_lastSpan fun last => ?_
    exact .after quiet_declareType fun _ => .succeed rfl

theorem declares_generic : Declares (fun i new => new = i.declared) generic := by
  refine .after quiet_peek fun t => .bind declares_typedName ?_
  rintro d _ rfl
  exact .after quiet_expect fun _ => .after quiet_lastSpan fun last => .succeed rfl

theorem declares_ports : Declares (fun i new => new = i.declared) ports := by
  have port : Declares (fun d new => new = [d.name]) port := by
    refine .after quiet_peek fun t => ?_
    split
    · exact .unexpected _
    · refine .after quiet_advance fun _ => .bind declares_typedName ?_
      rintro d _ rfl
      exact .after quiet_expect fun _ => .succeed rfl
  refine .after quiet_advance fun word => .after quiet_expect fun _ => ?_
  refine .bind (declares_manyUntil fun _ => port) ?_
  rintro ds _ rfl
  refine .after quiet_advance fun close => .succeed ?_
  rw [List.append_nil, ← List.map_eq_flatMap]
  rfl

/-! ## Statements -/

theorem quiet_setting : Quiet setting := by
  refine .after quiet_peek fun t => ?_
  split
  · exact .after quiet_advance fun _ => .succeed rfl
  · split
    · exact .after quiet_advance fun _ => .succeed rfl
    · exact .unexpected _

theorem declares_plainDecl {role : Role} :
    Declares (fun s new => new = s.declared) (plainDecl role) := by
  refine .after quiet_advance fun word => .bind declares_typedName ?_
  rintro d _ rfl
  exact .after quiet_lastSpan fun last => .after quiet_expect fun _ => .succeed rfl

theorem declares_constDecl : Declares (fun s new => new = s.declared) constDecl := by
  refine .after quiet_advance fun word => .bind declares_typedName ?_
  rintro d _ rfl
  refine .after quiet_expect fun _ => .after quiet_setting fun value => ?_
  exact .after quiet_lastSpan fun last => .after quiet_expect fun _ => .succeed rfl

theorem quiet_bindings : Quiet bindings := by
  have upTo : ∀ fuel, Quiet (bindingsUpTo fuel) := by
    intro fuel
    induction fuel with
    | zero => exact .outOfFuel
    | succ fuel ih =>
      refine .after quiet_expect fun n => .after quiet_expect fun _ => ?_
      refine .after quiet_setting fun value => .ifAt ?_ (.succeed rfl)
      exact .after quiet_advance fun _ => .after ih fun rest => .succeed rfl
  exact .ifAt (.succeed rfl) (.after quiet_remaining fun n => upTo _)

theorem declares_instanceOf {type : Segment} :
    Declares (fun s new => new = s.declared) (instanceOf type) := by
  refine .after quiet_advance fun n => .bind declares_declare ?_
  rintro _ _ rfl
  refine .after quiet_expect fun _ => .after quiet_expect fun _ => ?_
  refine .after quiet_expect fun built => ?_
  split
  · refine .after quiet_expect fun _ => .after quiet_bindings fun bs => ?_
    exact .after quiet_expect fun _ => .after quiet_expect fun semi => .succeed rfl
  · exact .fail _ _

theorem declares_assignOrInstance :
    Declares (fun s new => new = s.declared) assignOrInstance := by
  refine .after (quiet_reference quiet_expression) fun left => .after quiet_peek fun t => ?_
  split
  · refine .after quiet_advance fun _ => .after quiet_expression fun right => ?_
    exact .after quiet_expect fun semi => .succeed rfl
  · split
    · exact declares_instanceOf
    · exact .fail _ _
  · exact .unexpected _

theorem quiet_blockHead {kind : BlockKind} : Quiet (blockHead kind) := by
  have header : ∀ fuel, Quiet (blockHeader kind fuel) := by
    intro fuel
    induction fuel with
    | zero => exact .outOfFuel
    | succ fuel ih =>
      refine .after quiet_peek fun t => ?_
      split
      · exact .succeed rfl
      all_goals first | exact .unexpected _ | exact .after quiet_advance fun _ => ih
  exact .after quiet_remaining fun n => header _

theorem quiet_blockRest {kind : BlockKind} {opening : Span} : Quiet (blockRest kind opening) := by
  have body : ∀ fuel depth, Quiet (blockBody kind opening fuel depth) := by
    intro fuel
    induction fuel with
    | zero =>
      intro depth
      cases depth with
      | zero => exact .succeed rfl
      | succ depth => exact .outOfFuel
    | succ fuel ih =>
      intro depth
      cases depth with
      | zero => exact .succeed rfl
      | succ depth =>
        refine .after quiet_peek fun t => ?_
        split
        · exact .failHere _
        · exact .failHere _
        all_goals exact .after quiet_advance fun _ => ih _
  exact .after quiet_remaining fun n => body _ _

theorem declares_block {kind : BlockKind} :
    Declares (fun s new => new = s.declared) (block kind) := by
  refine .after quiet_advance fun word => .after quiet_blockHead fun _ => ?_
  refine .after quiet_advance fun opening => .after quiet_blockRest fun _ => ?_
  exact .after quiet_lastSpan fun last => .after quiet_sourceBetween fun body => .succeed rfl

theorem declares_stmt : Declares (fun s new => new = s.declared) stmt := by
  refine .after quiet_peek fun t => ?_
  split
  · exact declares_plainDecl
  · exact declares_plainDecl
  · exact declares_constDecl
  · exact declares_block
  · exact declares_block
  · exact declares_block
  · exact declares_assignOrInstance
  · exact .unexpected _

/-! ## Components -/

theorem declares_arch : Declares (fun i new => new = i.declared) arch := by
  have name : Quiet archName := by
    refine .after quiet_peek fun t => ?_
    split
    all_goals first | exact .succeed rfl | exact .after quiet_advance fun _ => .succeed rfl
  refine .after quiet_peek fun start => .after name fun name? => ?_
  refine .after quiet_expect fun _ => .after quiet_expect fun _ => ?_
  refine .bind (declares_manyUntil fun _ => declares_stmt) ?_
  rintro stmts _ rfl
  exact .after quiet_advance fun close => .succeed (List.append_nil _)

theorem declares_item {name : String} {done : List Item} :
    Declares (fun i new => new = i.declared) (item name done) := by
  refine .after quiet_peek fun t => ?_
  split
  iterate 4 exact declares_generic
  · split
    · exact .fail _ _
    · exact declares_ports
  iterate 4
    split
    · exact .fail _ _
    · exact declares_arch
  exact .unexpected _

/-- The names entered for a component are those that stand in its tree. -/
theorem declares_component {file : Nat} :
    Declares (fun c new => new = c.declared) (component file) := by
  refine .after quiet_expect fun word => .after quiet_expect fun name => ?_
  refine .after quiet_expect fun _ => .bind (declares_manyUntil fun _ => declares_item) ?_
  rintro items _ rfl
  refine .after quiet_advance fun close => .look fun r => .succeed ?_
  exact List.append_nil _

end Parse

/-! ## Parsed components -/

/-- The component was read where no name was declared before. -/
def Component.Parsed (c : Component) : Prop :=
  ∃ file r r', Parse.component file r = (.ok c, r') ∧ r.names = []

namespace Component.Parsed

variable {c : Component}

theorem declared_nodup (parsed : c.Parsed) : c.declared.Nodup := by
  obtain ⟨file, r, r', run, fresh⟩ := parsed
  obtain ⟨_, enters, distinct, rfl⟩ := Parse.declares_component r c r' run
  have none : r.declared = [] := by rw [Reading.declared, fresh, List.map_nil]
  rw [none, List.nil_append] at enters
  rw [← enters]
  exact distinct (by rw [none]; exact List.nodup_nil)

theorem instances_nodup (parsed : c.Parsed) : (c.instances.map (·.name)).Nodup := by
  -- the instances are some of the statements, in their order
  refine List.Nodup.sublist ?_ parsed.declared_nodup
  unfold Component.instances Component.stmts Component.arch? Component.declared
  cases found : c.items.findSome? Item.arch? with
  | none => exact List.nil_sublist _
  | some a =>
    obtain ⟨i, mem, here⟩ := List.exists_of_findSome?_eq_some found
    cases i with
    | arch a' =>
      cases here
      refine List.Sublist.trans ?_ (List.sublist_flatten_of_mem (List.mem_map_of_mem mem))
      show (List.map _ (List.filterMap _ a.stmts)).Sublist (a.stmts.flatMap Stmt.declared)
      induction a.stmts with
      | nil => exact List.Sublist.refl _
      | cons s rest ih =>
        cases s with
        | inst span i => exact ih.cons_cons _
        | decl d => exact ih.cons _
        | assign | block => exact ih
    | generic | ports => cases here

end Component.Parsed

/-- Where every round keeps what the next one needs, all components of a design have what a round
gives them. -/
theorem Design.forall_of_parseFrom {file : Nat} {needs : Reading → Prop} {good : Component → Prop}
    (round : ∀ r c r', needs r → Parse.component file r.fresh = (.ok c, r') →
      good c ∧ needs r') {fuel : Nat} {r : Reading} {d d' : Design} (start : needs r)
    (before : ∀ c ∈ d.components, good c) (run : Design.parseFrom file fuel r d = .ok d') :
    ∀ c ∈ d'.components, good c := by
  induction fuel generalizing r d with
  | zero => cases run
  | succ fuel ih =>
    unfold Design.parseFrom at run
    split at run
    · cases run
      exact before
    · split at run
      · cases run
      · next c r' read =>
        split at run
        · next d₁ added =>
          obtain ⟨here, next⟩ := round r c r' start read
          refine ih next ?_ run
          rw [Design.components_of_add? added, List.forall_mem_append, List.forall_mem_singleton]
          exact ⟨before, here⟩
        · cases run

/-- The components of a design that was read are parsed ones. -/
theorem Design.parsed_of_parse {f : SourceFile} {keepText : Bool} {d : Design}
    (h : Design.parse f keepText = .ok d) : ∀ c ∈ d.components, c.Parsed := by
  have round : ∀ (r : Reading) c r', True → Parse.component f.id r.fresh = (.ok c, r') →
      c.Parsed ∧ True := by
    intro r c r' _ read
    exact ⟨⟨f.id, r.fresh, r', read, rfl⟩, trivial⟩
  exact Design.forall_of_parseFrom round trivial (fun _ none => by cases none) h

/-- The design that a source is computed to give is the one that is read. -/
theorem Design.parse_of_toOption {f : SourceFile} {keepText : Bool} {d : Design}
    (h : (Design.parse f keepText).toOption = some d) : Design.parse f keepText = .ok d := by
  cases read : Design.parse f keepText with
  | error e =>
    rw [read] at h
    cases h
  | ok d' =>
    rw [read] at h
    exact congrArg Except.ok (Option.some.inj h)

end CircuitCompiler
