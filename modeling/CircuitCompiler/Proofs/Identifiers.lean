import CircuitCompiler.Proofs.Declared
import CircuitCompiler.Proofs.Grammar

/-!
# The words in the tree of a component

The scanner decides what a name, a number or a literal can be made of. The grammar moves these words
into the tree of a component as they are, so there every name is one of the language, every width a
positive number or a name, and every constant can be written. An architecture alone may also be
named by one of two reserved words.

* `Parse.Returns`: what a step of the grammar returns, with a rule for each way to build a step;
* `Component.Lexical`: what words the tree of a component is made of;
* `Component.Sourced`: a component was read from a source, as all those of a design that was read;
* `Design.lexical_of_parse`: the components of a design that was read are made of such words.
-/

namespace CircuitCompiler

/-- Removing repetitions adds nothing. -/
theorem mem_of_mem_eraseDupsBy {α : Type} {same : α → α → Bool} {as : List α} {x : α}
    (h : x ∈ as.eraseDupsBy same) : x ∈ as := by
  induction size : as.length using Nat.strongRecOn generalizing as with
  | ind n ih =>
    cases as with
    | nil => exact h
    | cons a rest =>
      have shorter : (rest.filter fun b => same b a = false).length < n :=
        size ▸ Nat.lt_succ_of_le (List.length_filter_le _ rest)
      rw [List.eraseDupsBy_cons, List.mem_cons] at h
      rcases h with rfl | h
      · exact List.mem_cons_self
      · exact List.mem_cons_of_mem a (List.mem_filter.mp (ih _ shorter h rfl)).1

/-! ## Trees made of words -/

/-- A number of bits is positive and fits into 32 bits, and a generic is named. -/
def Width.Lexical : Width → Prop
  | scalar => True
  | literal bits => 1 ≤ bits ∧ bits < 4294967296
  | generic name => IsName name

def Setting.Lexical : Setting → Prop
  | name segment => IsName segment.name
  | literal _ value => value.Proper

def Role.Lexical : Role → Prop
  | constant value => value.Lexical
  | generic | signal | variableRole | port _ => True

structure Decl.Lexical (d : Decl) : Prop where
  role : d.role.Lexical
  name : IsName d.name
  width : d.width.Lexical

/-- What is declared, before its role is known. -/
structure Declarator.Lexical (d : Declarator) : Prop where
  name : IsName d.name
  width : d.width.Lexical

structure Binding.Lexical (b : Binding) : Prop where
  name : IsName b.name.name
  value : b.value.Lexical

structure Instance.Lexical (i : Instance) : Prop where
  name : IsName i.name
  type : IsName i.type
  bindings : ∀ b ∈ i.bindings, b.Lexical

def Stmt.Lexical : Stmt → Prop
  | decl d => d.Lexical
  | inst _ i => i.Lexical
  | assign _ target value => target.Lexical ∧ value.Lexical
  | block .. => True

/-- The name of an architecture is a name or one of the reserved words for it. -/
structure Architecture.Lexical (a : Architecture) : Prop where
  name : IsName a.name ∨ a.name ∈ ["implementation", "verification"]
  stmts : ∀ s ∈ a.stmts, s.Lexical

def Item.Lexical : Item → Prop
  | generic _ d => d.Lexical
  | ports _ ds => ∀ d ∈ ds, d.Lexical
  | arch a => a.Lexical

structure Component.Lexical (c : Component) : Prop where
  name : IsName c.name
  items : ∀ i ∈ c.items, i.Lexical

namespace Component.Lexical

variable {c : Component} (h : c.Lexical)

include h

theorem generics : ∀ d ∈ c.generics, d.Lexical := by
  intro d mem
  obtain ⟨i, hi, here⟩ := List.mem_filterMap.mp mem
  have lexical := h.items i hi
  cases i with
  | generic span d' =>
    cases here
    exact lexical
  | ports | arch => cases here

theorem ports : ∀ d ∈ c.ports, d.Lexical := by
  intro d mem
  unfold Component.ports at mem
  cases found : c.items.findSome? Item.ports? with
  | none =>
    rw [found] at mem
    cases mem
  | some ds =>
    rw [found] at mem
    obtain ⟨i, hi, here⟩ := List.exists_of_findSome?_eq_some found
    have lexical := h.items i hi
    cases i with
    | ports span ds' =>
      cases here
      exact lexical d mem
    | generic | arch => cases here

theorem arch : ∀ a ∈ c.arch?, a.Lexical := by
  intro a found
  obtain ⟨i, hi, here⟩ := List.exists_of_findSome?_eq_some found
  have lexical := h.items i hi
  cases i with
  | arch a' =>
    cases here
    exact lexical
  | generic | ports => cases here

theorem stmts : ∀ s ∈ c.stmts, s.Lexical := by
  intro s mem
  unfold Component.stmts at mem
  cases found : c.arch? with
  | none =>
    rw [found] at mem
    cases mem
  | some a =>
    rw [found] at mem
    exact (h.arch a found).stmts s mem

theorem innerDecls : ∀ d ∈ c.innerDecls, d.Lexical := by
  intro d mem
  obtain ⟨s, hs, here⟩ := List.mem_filterMap.mp mem
  have lexical := h.stmts s hs
  cases s with
  | decl d' =>
    cases here
    exact lexical
  | inst | assign | block => cases here

theorem instances : ∀ i ∈ c.instances, i.Lexical := by
  intro i mem
  obtain ⟨s, hs, here⟩ := List.mem_filterMap.mp mem
  have lexical := h.stmts s hs
  cases s with
  | inst span i' =>
    cases here
    exact lexical
  | decl | assign | block => cases here

end Component.Lexical

/-! ## Words of tokens -/

/-- A token that stands in the source is spelled as its kind demands. -/
def Token.Sound (t : Token) : Prop := t.kind ≠ .eof → t.kind ≠ .invalid → t.Spelled

namespace Token.Sound

variable {t : Token}

theorem isName (h : t.Sound) (kind : t.kind = .ident) : IsName t.name := by
  have written := h (by simp [kind]) (by simp [kind])
  rw [Spelled, kind] at written
  rw [written.1]
  exact written.2

theorem name_keyword (h : t.Sound) {w : Keyword} (kind : t.kind = .keyword w) :
    t.name = w.spelling := by
  have written := h (by simp [kind]) (by simp [kind])
  rw [Spelled, kind] at written
  exact written.1.trans written.2

theorem proper (h : t.Sound) {form : ConstForm} (found : t.kind.constForm? = some form) :
    (Constant.mk form t.name).Proper := by
  have written := h (by intro kind; rw [kind] at found; cases found)
    (by intro kind; rw [kind] at found; cases found)
  exact (Kind.Writes.constant written found).2

end Token.Sound

/-- The next token is sound if those of the source are. -/
theorem Reading.sound_current {r : Reading} (spelled : ∀ t ∈ r.tokens, t.Spelled) :
    r.current.Sound := by
  intro more valid
  obtain ⟨t, rest, split⟩ := List.exists_cons_of_ne_nil (tokens_ne_nil rfl more valid)
  rw [current_of_tokens split]
  exact (spelled t (by rw [split]; exact List.mem_cons_self)).inScope _

namespace Parse

variable {α β : Type}

/-! ## What a step returns -/

/-- From the reading `r` on, where `p` succeeds, it takes tokens off the front, and its result is as
`post` says. -/
def Returns (post : α → Prop) (p : Parse α) (r : Reading) : Prop := Takes (fun a _ => post a) p r

/-- The step takes tokens off the front. -/
def Steady (p : Parse α) : Prop := ∀ r, Returns (fun _ => True) p r

theorem Takes.returns {mid : α → List String → Prop} {post : α → Prop} {p : Parse α} {r : Reading}
    (h : Takes mid p r) (le : ∀ a ts, mid a ts → post a) : Returns post p r :=
  h.weaken le

/-- The step takes nothing. -/
theorem Steady.of_same {p : Parse α}
    (h : ∀ r, (p r).2.tokens = r.tokens ∧ (p r).2.stop = r.stop) : Steady p := by
  intro r _ a r' run
  have same := h r
  rw [run] at same
  exact ⟨same.2, [], same.1.symm, trivial⟩

namespace Returns

variable {post : β → Prop} {r : Reading}

theorem bind {mid : α → Prop} {p : Parse α} {f : α → Parse β} (first : Returns mid p r)
    (second : ∀ a r', mid a → Returns post (f a) r') : Returns post (p >>= f) r :=
  Takes.bind first fun a _ r' => second a r'

/-- The second step alone counts. -/
theorem after {p : Parse α} {f : α → Parse β} (first : Steady p)
    (second : ∀ a r', Returns post (f a) r') : Returns post (p >>= f) r :=
  bind (first r) fun a r' _ => second a r'

theorem succeed {b : β} (h : post b) : Returns post (Parse.succeed b) r := Takes.succeed h

theorem fail (cause : Cause) (span : Span) : Returns post (Parse.fail cause span) r :=
  Takes.fail cause span

theorem unexpected (wanted : Wanted) : Returns post (Parse.unexpected wanted) r :=
  Takes.unexpected wanted

theorem failHere (cause : Reading → Token → CompileError) :
    Returns post (Parse.failHere cause) r := by
  refine Takes.never fun b r' run => ?_
  unfold Parse.failHere at run
  split at run <;> cases run

theorem outOfFuel : Returns post (fun r => Parse.fail .parseFailed r.last r) r :=
  Takes.never fun _ _ run => by cases run

/-- A step that looks at the next token sees a sound one. -/
theorem look {f : Token → Parse β} (h : r.current.Sound → Returns post (f r.current) r) :
    Returns post (peek >>= f) r :=
  fun spelled => h (Reading.sound_current spelled) spelled

theorem ifAt {κ : Kind} {yes no : Parse β} (hy : Returns post yes r) (hn : Returns post no r) :
    Returns post (Parse.isAt κ >>= fun b => if b = true then yes else no) r :=
  Takes.ifAt (fun _ => hy) hn

/-- What is taken is the next token. -/
theorem advance : Returns (fun t => t = r.current) Parse.advance r := by
  intro _ t r' run
  unfold Parse.advance at run
  split at run
  · next none =>
    cases run
    exact ⟨rfl, [], rfl, rfl⟩
  · next u rest some =>
    cases run
    exact ⟨rfl, [u], some, rfl⟩

theorem expect_name {wanted : Wanted} :
    Returns (fun t => IsName t.name) (Parse.expect .ident wanted) r :=
  Takes.expect_name.returns fun _ _ => And.left

end Returns

/-! ## Single steps -/

theorem steady_peek : Steady peek := .of_same fun _ => ⟨rfl, rfl⟩

theorem steady_lastSpan : Steady lastSpan := .of_same fun _ => ⟨rfl, rfl⟩

theorem steady_remaining : Steady remaining := .of_same fun _ => ⟨rfl, rfl⟩

theorem steady_sourceBetween {start stop : Nat} : Steady (sourceBetween start stop) :=
  .of_same fun _ => ⟨rfl, rfl⟩

theorem steady_declare {name : String} {span : Span} : Steady (declare name span) := by
  refine .of_same fun r => ?_
  unfold declare
  split <;> exact ⟨rfl, rfl⟩

theorem steady_declareType {type : DataType} {name : String} {w : Width} :
    Steady (declareType type name w) := by
  unfold declareType
  split <;> exact .of_same fun _ => ⟨rfl, rfl⟩

theorem steady_advance : Steady advance := fun _ =>
  Returns.advance.weaken fun _ _ _ => trivial

theorem steady_expect {κ : Kind} {wanted : Wanted} : Steady (expect κ wanted) := by
  intro r spelled t r' run
  obtain ⟨-, taken⟩ := advance_of_expect run
  exact steady_advance r spelled t r' taken

/-- A loop returns what its rounds return. -/
theorem returns_untilAt {close : Kind} {step : List α → Parse α} {post : α → Prop}
    (round : ∀ done r, Returns post (step done) r) (fuel : Nat) :
    ∀ done r, (∀ a ∈ done, post a) →
      Returns (fun as => ∀ a ∈ as, post a) (untilAt close step fuel done) r := by
  induction fuel with
  | zero => exact fun _ _ _ => .outOfFuel
  | succ fuel ih =>
    intro done r before
    refine .ifAt (.succeed before) (.bind (round done r) fun a r' here => ih _ r' ?_)
    rw [List.forall_mem_append, List.forall_mem_singleton]
    exact ⟨before, here⟩

theorem returns_manyUntil {close : Kind} {step : List α → Parse α} {post : α → Prop} {r : Reading}
    (round : ∀ done r, Returns post (step done) r) :
    Returns (fun as => ∀ a ∈ as, post a) (manyUntil close step) r :=
  .after steady_remaining fun n r' =>
    returns_untilAt round (n + 1) [] r' fun _ none => by cases none

/-! ## Declarations -/

variable {r : Reading}

theorem Width.lexical_of_ofNat? {n : Nat} {w : Width} (h : Width.ofNat? n = some w) :
    w.Lexical := by
  unfold Width.ofNat? at h
  split at h
  · next inside =>
    cases h
    simp only [Bool.and_eq_true, decide_eq_true_eq] at inside
    exact inside
  · cases h

theorem returns_optionalWidth : Returns Width.Lexical optionalWidth r := by
  have value : ∀ r, Returns Width.Lexical widthValue r := by
    refine fun r => .look fun sound => ?_
    split
    · split
      · split
        · next w found => exact .succeed (Width.lexical_of_ofNat? found)
        · exact .fail _ _
      · exact .unexpected _
    · next kind => exact .succeed (sound.isName kind)
    · exact .unexpected _
  refine .ifAt (.after steady_advance fun _ r => .bind (value r) fun w r lexical => ?_)
    (.succeed trivial)
  exact .after steady_advance fun _ r => .after steady_expect fun _ r => .succeed lexical

theorem returns_typedName : Returns Declarator.Lexical typedName r := by
  refine .look fun _ => ?_
  split
  · exact .unexpected _
  · refine .after steady_advance fun _ r => .bind .expect_name fun n r name => ?_
    refine .after steady_declare fun _ r => .bind returns_optionalWidth fun w r width => ?_
    refine .after steady_lastSpan fun last r => .after steady_declareType fun _ r => ?_
    exact .succeed ⟨name, width⟩

theorem returns_generic : Returns Item.Lexical generic r := by
  refine .after steady_peek fun t r => .bind returns_typedName fun d r lexical => ?_
  refine .after steady_expect fun _ r => .after steady_lastSpan fun last r => ?_
  exact .succeed ⟨trivial, lexical.name, lexical.width⟩

theorem returns_ports : Returns Item.Lexical ports r := by
  have port : ∀ r, Returns Decl.Lexical port r := by
    refine fun r => .look fun _ => ?_
    split
    · exact .unexpected _
    · refine .after steady_advance fun _ r => .bind returns_typedName fun d r lexical => ?_
      exact .after steady_expect fun _ r => .succeed ⟨trivial, lexical.name, lexical.width⟩
  refine .after steady_advance fun word r => .after steady_expect fun _ r => ?_
  refine .bind (returns_manyUntil fun _ => port) fun ds r lexical => ?_
  exact .after steady_advance fun close r => .succeed lexical

/-! ## Statements -/

theorem returns_setting : Returns Setting.Lexical setting r := by
  refine .look fun sound => ?_
  split
  · next form found => exact .after steady_advance fun _ r => .succeed (sound.proper found)
  · split
    · next kind => exact .after steady_advance fun _ r => .succeed (sound.isName kind)
    · exact .unexpected _

theorem returns_plainDecl {role : Role} (plain : role.Lexical) :
    Returns Stmt.Lexical (plainDecl role) r := by
  refine .after steady_advance fun word r => .bind returns_typedName fun d r lexical => ?_
  refine .after steady_lastSpan fun last r => .after steady_expect fun _ r => ?_
  exact .succeed ⟨plain, lexical.name, lexical.width⟩

theorem returns_constDecl : Returns Stmt.Lexical constDecl r := by
  refine .after steady_advance fun word r => .bind returns_typedName fun d r lexical => ?_
  refine .after steady_expect fun _ r => .bind returns_setting fun value r proper => ?_
  refine .after steady_lastSpan fun last r => .after steady_expect fun _ r => ?_
  exact .succeed ⟨proper, lexical.name, lexical.width⟩

theorem returns_bindings : Returns (fun bs => ∀ b ∈ bs, b.Lexical) bindings r := by
  have upTo : ∀ fuel r, Returns (fun bs => ∀ b ∈ bs, b.Lexical) (bindingsUpTo fuel) r := by
    intro fuel
    induction fuel with
    | zero => exact fun _ => .outOfFuel
    | succ fuel ih =>
      refine fun r => .bind .expect_name fun n r name => .after steady_expect fun _ r => ?_
      refine .bind returns_setting fun value r proper => .ifAt ?_ (.succeed ?_)
      · refine .after steady_advance fun _ r => .bind (ih r) fun rest r later => .succeed ?_
        exact List.forall_mem_cons.mpr ⟨⟨name, proper⟩, later⟩
      · exact List.forall_mem_singleton.mpr ⟨name, proper⟩
  refine .ifAt (.succeed fun _ none => by cases none) ?_
  exact .after steady_remaining fun n r => upTo _ r

/-- An instance is read where its name is next. -/
theorem returns_instanceOf {type : Segment} (named : IsName type.name)
    (next : IsName r.current.name) : Returns Stmt.Lexical (instanceOf type) r := by
  refine .bind .advance ?_
  rintro _ r rfl
  refine .after steady_declare fun _ r => .after steady_expect fun _ r => ?_
  refine .after steady_expect fun _ r => .after steady_expect fun built r => ?_
  split
  · refine .after steady_expect fun _ r => .bind returns_bindings fun bs r lexical => ?_
    refine .after steady_expect fun _ r => .after steady_expect fun semi r => ?_
    exact .succeed ⟨next, named, lexical⟩
  · exact .fail _ _

theorem returns_expression : Returns Expr.Lexical expression r :=
  (takes_expression r).returns fun _ _ faithful => faithful.lexical

theorem returns_assignOrInstance : Returns Stmt.Lexical assignOrInstance r := by
  have target : Returns Expr.Lexical target r :=
    (takes_reference takes_expression r).returns fun _ _ faithful => faithful.lexical
  refine .bind target fun left r lexical => .look fun sound => ?_
  split
  · refine .after steady_advance fun _ r => .bind returns_expression fun right r behind => ?_
    exact .after steady_expect fun semi r => .succeed ⟨lexical, behind⟩
  · next kind =>
    split
    · next type => exact returns_instanceOf (lexical type List.mem_cons_self) (sound.isName kind)
    · exact .fail _ _
  · exact .unexpected _

theorem steady_blockHead {kind : BlockKind} : Steady (blockHead kind) := by
  have header : ∀ fuel r, Returns (fun _ => True) (blockHeader kind fuel) r := by
    intro fuel
    induction fuel with
    | zero => exact fun _ => .outOfFuel
    | succ fuel ih =>
      refine fun r => .look fun _ => ?_
      split
      · exact .succeed trivial
      all_goals first | exact .unexpected _ | exact .after steady_advance fun _ r => ih r
  exact fun r => .after steady_remaining fun n r => header _ r

theorem steady_blockRest {kind : BlockKind} {opening : Span} : Steady (blockRest kind opening) := by
  have body : ∀ fuel depth r, Returns (fun _ => True) (blockBody kind opening fuel depth) r := by
    intro fuel
    induction fuel with
    | zero =>
      intro depth
      cases depth with
      | zero => exact fun _ => .succeed trivial
      | succ depth => exact fun _ => .outOfFuel
    | succ fuel ih =>
      intro depth
      cases depth with
      | zero => exact fun _ => .succeed trivial
      | succ depth =>
        refine fun r => .look fun _ => ?_
        split
        · exact .failHere _
        · exact .failHere _
        all_goals exact .after steady_advance fun _ r => ih _ r
  exact fun r => .after steady_remaining fun n r => body _ _ r

theorem returns_block {kind : BlockKind} : Returns Stmt.Lexical (block kind) r := by
  refine .after steady_advance fun word r => .after steady_blockHead fun _ r => ?_
  refine .after steady_advance fun opening r => .after steady_blockRest fun _ r => ?_
  refine .after steady_lastSpan fun last r => .after steady_sourceBetween fun body r => ?_
  exact .succeed trivial

theorem returns_stmt : Returns Stmt.Lexical stmt r := by
  refine .look fun _ => ?_
  split
  · exact returns_plainDecl trivial
  · exact returns_plainDecl trivial
  · exact returns_constDecl
  · exact returns_block
  · exact returns_block
  · exact returns_block
  · exact returns_assignOrInstance
  · exact .unexpected _

/-! ## Components -/

theorem returns_arch : Returns Item.Lexical arch r := by
  have name : ∀ r, Returns (fun name? : Option Segment =>
      ∀ s ∈ name?, IsName s.name ∨ s.name ∈ ["implementation", "verification"]) archName r := by
    refine fun r => .look fun sound => ?_
    split
    · next kind =>
      refine .after steady_advance fun _ r => .succeed ?_
      rintro _ ⟨⟩
      exact .inl (sound.isName kind)
    iterate 2
      next kind =>
      refine .after steady_advance fun _ r => .succeed ?_
      rintro _ ⟨⟩
      exact .inr (by simp [sound.name_keyword kind, Keyword.spelling])
    · exact .succeed fun _ none => by cases none
  refine .after steady_peek fun start r => .bind (name r) fun name? r named => ?_
  refine .after steady_expect fun _ r => .after steady_expect fun _ r => ?_
  refine .bind (returns_manyUntil fun _ _ => returns_stmt) fun stmts r lexical => ?_
  refine .after steady_advance fun close r => .succeed ⟨?_, lexical⟩
  cases name? with
  | none => exact .inr (by simp [Architecture.defaultName])
  | some s => exact named s rfl

theorem returns_item {name : String} {done : List Item} :
    Returns Item.Lexical (item name done) r := by
  refine .look fun _ => ?_
  split
  iterate 4 exact returns_generic
  · split
    · exact .fail _ _
    · exact returns_ports
  iterate 4
    split
    · exact .fail _ _
    · exact returns_arch
  exact .unexpected _

theorem returns_component {file : Nat} : Returns Component.Lexical (component file) r := by
  refine .after steady_expect fun word r => .bind .expect_name fun name r named => ?_
  refine .after steady_expect fun _ r => ?_
  refine .bind (returns_manyUntil fun _ _ => returns_item) fun items r lexical => ?_
  refine .after steady_advance fun close r => ?_
  exact Returns.succeed ⟨named, lexical⟩

end Parse

/-! ## Designs -/

/-- The component was read from tokens of a source, where no name was declared before. -/
def Component.Sourced (c : Component) : Prop :=
  ∃ (source : Cursor) (file : Nat) (r r' : Reading), r.tokens <:+ (Stream.ofCursor source).tokens ∧
    r.names = [] ∧ Parse.component file r = (.ok c, r')

namespace Component.Sourced

variable {c : Component}

theorem parsed (h : c.Sourced) : c.Parsed := by
  obtain ⟨source, file, r, r', -, fresh, read⟩ := h
  exact ⟨file, r, r', read, fresh⟩

theorem lexical (h : c.Sourced) : c.Lexical := by
  obtain ⟨source, file, r, r', inside, -, read⟩ := h
  have spelled : ∀ t ∈ r.tokens, t.Spelled := fun t ht => Stream.scan_spelled t (inside.subset ht)
  obtain ⟨-, used, split, lexical⟩ := Parse.returns_component spelled c r' read
  exact lexical

end Component.Sourced

/-- The components of a design that was read come from its source. -/
theorem Design.sourced_of_parse {f : SourceFile} {keepText : Bool} {d : Design}
    (h : Design.parse f keepText = .ok d) : ∀ c ∈ d.components, c.Sourced := by
  -- each round leaves tokens of the source
  have round : ∀ (r : Reading) c r', r.tokens <:+ (Stream.ofCursor (.ofFile f)).tokens →
      Parse.component f.id r.fresh = (.ok c, r') →
        c.Sourced ∧ r'.tokens <:+ (Stream.ofCursor (.ofFile f)).tokens := by
    intro r c r' inside read
    have spelled : ∀ t ∈ r.fresh.tokens, t.Spelled := fun t ht =>
      Stream.scan_spelled t (inside.subset ht)
    obtain ⟨-, used, split, -⟩ := Parse.returns_component spelled c r' read
    refine ⟨⟨.ofFile f, f.id, r.fresh, r', inside, rfl, read⟩, ?_⟩
    exact List.IsSuffix.trans ⟨used, split.symm⟩ inside
  exact Design.forall_of_parseFrom round (List.suffix_refl _) (fun _ none => by cases none) h

/-- The components of a design that was read are made of words of the language. -/
theorem Design.lexical_of_parse {f : SourceFile} {keepText : Bool} {d : Design}
    (h : Design.parse f keepText = .ok d) : ∀ c ∈ d.components, c.Lexical := fun c hc =>
  (Design.sourced_of_parse h c hc).lexical

end CircuitCompiler
