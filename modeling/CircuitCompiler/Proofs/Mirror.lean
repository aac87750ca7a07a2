import CircuitCompiler.Proofs.Wiring

/-!
# Parsing in other places

The grammar decides by kinds and texts of tokens, never by where they stand. So if all tokens of a
reading are put in other places, every step does the same there: it succeeds with its result in the
other places, or it fails with an error of the same class. In contrast to tracking, the tokens
behind a step are moved as well, so loops run for the same number of rounds and a step that fails
can be followed, too.

* `Parse.Mirrors`: a step, and one that does the same in other places;
* `Parse.mirrors_component`: the grammar of components mirrors itself.
-/

namespace CircuitCompiler

/-- Two errors with the same class and code; their places and wording may differ. -/
structure CompileError.Akin (e e' : CompileError) : Prop where
  kind : e.kind = e'.kind
  code : e.code = e'.code

theorem CompileError.Akin.of_cause {e e' : CompileError} (h : e.cause = e'.cause) : e.Akin e' :=
  ⟨congrArg Cause.kind h, congrArg Cause.code h⟩

theorem CompileError.Akin.trans {e e' e'' : CompileError} (h : e.Akin e') (h' : e'.Akin e'') :
    e.Akin e'' := ⟨h.kind.trans h'.kind, h.code.trans h'.code⟩

theorem CompileError.Akin.symm {e e' : CompileError} (h : e.Akin e') : e'.Akin e :=
  ⟨h.kind.symm, h.code.symm⟩

namespace Relocation

variable (m : Relocation)

/-- The end of a stream in its new place. -/
def stop : Stop → Stop
  | .eof span => .eof (m.span span)
  | .fault e => .fault (m.error e)

/-- A reading with all of its tokens in their new places. -/
def onto (r : Reading) : Reading := m.reading r (r.tokens.map m.token) (m.stop r.stop)

theorem onto_current (r : Reading) : (m.onto r).current = m.token r.current := by
  unfold Reading.current onto reading
  cases r.tokens with
  | nil => cases r.stop <;> rfl
  | cons t rest => rfl

end Relocation

namespace Parse

variable {α α' β β' : Type}

/-- From every reading on, `q` does in the places of `m` what `p` does: it succeeds with the result
that `view` makes, or fails with an error of the same class. -/
def Mirrors (m : Relocation) (view : α → α') (p : Parse α) (q : Parse α') : Prop :=
  ∀ r, r.source? = m.source? → match p r with
    | (.ok a, r') => r'.source? = m.source? ∧ q (m.onto r) = (.ok (view a), m.onto r')
    | (.error e, _) => ∃ e' r', q (m.onto r) = (.error e', r') ∧ e.Akin e'

variable {m : Relocation}

namespace Mirrors

theorem succeed {view : α → α'} {a : α} {a' : α'} (h : view a = a') :
    Mirrors m view (Parse.succeed a) (Parse.succeed a') :=
  fun _ source => ⟨source, by rw [← h]; rfl⟩

theorem bind {view : α → α'} {view' : β → β'} {p : Parse α} {q : Parse α'} {f : α → Parse β}
    {g : α' → Parse β'} (first : Mirrors m view p q)
    (second : ∀ a, Mirrors m view' (f a) (g (view a))) : Mirrors m view' (p >>= f) (q >>= g) := by
  intro r source
  have here := first r source
  show match andThen p f r with
    | (.ok a, r') => r'.source? = m.source? ∧ andThen q g (m.onto r) = (.ok (view' a), m.onto r')
    | (.error e, _) => ∃ e' r', andThen q g (m.onto r) = (.error e', r') ∧ e.Akin e'
  unfold andThen
  rcases run : p r with ⟨e | a, r'⟩
  · rw [run] at here
    obtain ⟨e', r'', fails, akin⟩ := here
    exact ⟨e', r'', by rw [fails], akin⟩
  · rw [run] at here
    obtain ⟨source', runs⟩ := here
    rw [runs]
    exact second a r' source'

/-! ## Failing -/

theorem fail {view : α → α'} {cause cause' : Cause} {span span' : Span}
    (kind : cause.kind = cause'.kind) (code : cause.code = cause'.code) :
    Mirrors m view (Parse.fail cause span) (Parse.fail cause' span') :=
  fun _ _ => ⟨_, _, rfl, kind, code⟩

theorem outOfFuel {view : α → α'} : Mirrors m view (fun r => Parse.fail .parseFailed r.last r)
    (fun r => Parse.fail .parseFailed r.last r) :=
  fun _ _ => ⟨_, _, rfl, rfl, rfl⟩

/-- A fault is reported in either place; other complaints are made by the grammar. -/
theorem failHere {view : α → α'} {cause cause' : Reading → Token → CompileError}
    (akin : ∀ r, (cause r r.current).Akin (cause' (m.onto r) (m.token r.current))) :
    Mirrors m view (Parse.failHere cause) (Parse.failHere cause') := by
  intro r _
  rw [Parse.failHere, Parse.failHere, m.onto_current]
  cases tokens : r.tokens with
  | nil =>
    have none : (m.onto r).tokens = [] := by rw [Relocation.onto, tokens]; rfl
    cases stop : r.stop with
    | eof span =>
      have ends : (m.onto r).stop = .eof (m.span span) := by rw [Relocation.onto, stop]; rfl
      simp only [none, ends]
      exact ⟨_, _, rfl, akin r⟩
    | fault e =>
      have ends : (m.onto r).stop = .fault (m.error e) := by rw [Relocation.onto, stop]; rfl
      simp only [none, ends]
      exact ⟨_, _, rfl, .of_cause rfl⟩
  | cons t rest =>
    have some : (m.onto r).tokens = m.token t :: rest.map m.token := by
      rw [Relocation.onto, tokens]
      rfl
    simp only [some]
    exact ⟨_, _, rfl, akin r⟩

theorem unexpected {view : α → α'} {wanted : Wanted} :
    Mirrors m view (Parse.unexpected wanted) (Parse.unexpected wanted) :=
  failHere fun _ => .of_cause rfl

/-! ## Single steps -/

theorem peek : Mirrors m m.token Parse.peek Parse.peek :=
  fun r source => ⟨source, by rw [Parse.peek, m.onto_current]⟩

theorem advance : Mirrors m m.token Parse.advance Parse.advance := by
  intro r source
  unfold Parse.advance
  cases tokens : r.tokens with
  | nil =>
    have none : (m.onto r).tokens = [] := by rw [Relocation.onto, tokens]; rfl
    simp only [none, m.onto_current]
    exact ⟨source, trivial⟩
  | cons t rest =>
    have some : (m.onto r).tokens = m.token t :: rest.map m.token := by
      rw [Relocation.onto, tokens]
      rfl
    simp only [some, m.onto_current]
    exact ⟨source, rfl⟩

theorem isAt {κ : Kind} : Mirrors m id (Parse.isAt κ) (Parse.isAt κ) :=
  fun r source => ⟨source, by rw [Parse.isAt, m.onto_current]; rfl⟩

theorem lastSpan : Mirrors m m.span Parse.lastSpan Parse.lastSpan := fun _ source => ⟨source, rfl⟩

theorem remaining : Mirrors m id Parse.remaining Parse.remaining :=
  fun r source => ⟨source, by rw [Parse.remaining, Relocation.onto]; simp [Relocation.reading]⟩

theorem currentScope : Mirrors m id Parse.currentScope Parse.currentScope :=
  fun _ source => ⟨source, rfl⟩

theorem isVector {name : String} : Mirrors m id (Parse.isVector name) (Parse.isVector name) :=
  fun _ source => ⟨source, rfl⟩

theorem declareWidth {name : String} {w : Width} :
    Mirrors m id (Parse.declareWidth name w) (Parse.declareWidth name w) :=
  fun _ source => ⟨source, rfl⟩

theorem sourceBetween {start stop : Span} :
    Mirrors m m.body (Parse.sourceBetween start.stop stop.start)
      (Parse.sourceBetween (m.span start).stop (m.span stop).start) := by
  intro r source
  refine ⟨source, Prod.ext (congrArg Except.ok ?_) rfl⟩
  rw [source]
  exact m.between start stop

/-- A name is declared twice in either place; the complaints name the two places. -/
theorem declare {name : String} {span : Span} :
    Mirrors m id (Parse.declare name span) (Parse.declare name (m.span span)) := by
  intro r source
  have names : (m.onto r).names.lookup name = (r.names.lookup name).map m.span :=
    m.lookup_named r.names name
  unfold Parse.declare
  rw [names]
  cases r.names.lookup name with
  | some first => exact ⟨_, _, rfl, rfl, rfl⟩
  | none =>
    refine ⟨source, Prod.ext rfl ?_⟩
    simp [Relocation.onto, Relocation.reading, Relocation.named]

theorem expect {κ : Kind} {wanted : Wanted} :
    Mirrors m m.token (Parse.expect κ wanted) (Parse.expect κ wanted) := by
  intro r source
  unfold Parse.expect
  rw [m.onto_current, m.token_kind]
  by_cases here : r.current.kind = κ
  · simp only [if_pos here]
    exact advance r source
  · simp only [if_neg here]
    exact unexpected r source

/-! ## Choices and scopes -/

/-- A choice by a condition on which both sides agree. -/
theorem ite {c : Prop} [Decidable c] {view : α → α'} {yes no : Parse α} {yes' no' : Parse α'}
    (hy : Mirrors m view yes yes') (hn : Mirrors m view no no') :
    Mirrors m view (if c then yes else no) (if c then yes' else no') := by
  by_cases h : c
  · rw [if_pos h, if_pos h]
    exact hy
  · rw [if_neg h, if_neg h]
    exact hn

theorem ifAt {κ : Kind} {view : α → α'} {yes no : Parse α} {yes' no' : Parse α'}
    (hy : Mirrors m view yes yes') (hn : Mirrors m view no no') :
    Mirrors m view (Parse.isAt κ >>= fun b => if b = true then yes else no)
      (Parse.isAt κ >>= fun b => if b = true then yes' else no') :=
  bind isAt fun _ => ite hy hn

theorem withScope {scope : Scope} {view : α → α'} {p : Parse α} {q : Parse α'}
    (h : Mirrors m view p q) :
    Mirrors m view (Parse.withScope scope p) (Parse.withScope scope q) := by
  intro r source
  have inner := h { r with scope } source
  have moved : m.onto { r with scope } = { m.onto r with scope } := rfl
  rw [moved] at inner
  unfold Parse.withScope
  rcases run : p { r with scope } with ⟨e | a, r'⟩
  · rw [run] at inner
    obtain ⟨e', r'', fails, akin⟩ := inner
    exact ⟨e', _, by rw [fails], akin⟩
  · rw [run] at inner
    obtain ⟨source', runs⟩ := inner
    exact ⟨source', by rw [runs]; rfl⟩

/-! ## Loops -/

theorem untilAt {close : Kind} {view : α → α'} {step : List α → Parse α}
    {step' : List α' → Parse α'} (round : ∀ done, Mirrors m view (step done) (step' (done.map view)))
    (fuel : Nat) (done : List α) :
    Mirrors m (List.map view) (Parse.untilAt close step fuel done)
      (Parse.untilAt close step' fuel (done.map view)) := by
  induction fuel generalizing done with
  | zero => exact outOfFuel
  | succ fuel ih =>
    refine ifAt (succeed rfl) (bind (round done) fun a => ?_)
    have next := ih (done ++ [a])
    rwa [List.map_append] at next

theorem manyUntil {close : Kind} {view : α → α'} {step : List α → Parse α}
    {step' : List α' → Parse α'}
    (round : ∀ done, Mirrors m view (step done) (step' (done.map view))) :
    Mirrors m (List.map view) (Parse.manyUntil close step) (Parse.manyUntil close step') :=
  bind remaining fun n => untilAt round (n + 1) []

end Mirrors

/-! ## Expressions -/

theorem mirrors_leftAssoc {next next' : Parse Expr} {op? : Kind → Option Operator}
    (h : Mirrors m m.expr next next') :
    Mirrors m m.expr (leftAssoc next op?) (leftAssoc next' op?) := by
  have rounds : ∀ fuel left, Mirrors m m.expr (leftRounds next op? fuel left)
      (leftRounds next' op? fuel (m.expr left)) := by
    intro fuel
    induction fuel with
    | zero => exact fun _ => .outOfFuel
    | succ fuel ih =>
      intro left
      refine .bind .peek fun t => ?_
      simp only [Relocation.token_kind]
      split
      · exact .succeed rfl
      · next op _ =>
        refine .bind .advance fun _ => .bind h fun right => ?_
        have again := ih (.binary (left.span.cover right.span) op left right)
        simpa only [Relocation.expr, Relocation.expr_span, m.cover] using again
  exact .bind h fun left => .bind .remaining fun n => rounds (n + 1) left

theorem mirrors_path : Mirrors m m.path path path := by
  have segments : ∀ fuel, Mirrors m m.path (segments fuel) (segments fuel) := by
    intro fuel
    induction fuel with
    | zero => exact .outOfFuel
    | succ fuel ih =>
      refine .bind .expect fun t => .ifAt ?_ (.succeed rfl)
      exact .bind .advance fun _ => .bind ih fun rest => .succeed rfl
  exact .bind .remaining fun n => segments (n + 1)

theorem mirrors_behindUnary {op : UnaryOperator} {operand operand' : Parse Expr}
    (h : Mirrors m m.expr operand operand') :
    Mirrors m m.expr (behindUnary op operand) (behindUnary op operand') := by
  refine .bind .advance fun t => .bind h fun e => .succeed ?_
  simp [Relocation.expr, m.cover]

section Levels

variable {expr expr' : Parse Expr} (h : Mirrors m m.expr expr expr')

include h

theorem mirrors_bounds : Mirrors m (boundsView m) (bounds expr) (bounds expr') := by
  refine .bind .advance fun _ => .bind h fun high => .ifAt ?_ (.succeed rfl)
  exact .bind .advance fun _ => .bind h fun low => .succeed rfl

theorem mirrors_splice (target : Path) :
    Mirrors m m.expr (splice expr target) (splice expr' (m.path target)) := by
  unfold splice
  rw [m.path_text]
  refine .bind .isVector fun vector => .ite ?_ (.fail rfl rfl)
  refine .bind (.withScope (mirrors_bounds h)) fun b => .bind .expect fun close => ?_
  obtain ⟨high, low?⟩ := b
  cases low? with
  | none => exact .succeed (by simp [Relocation.expr, m.cover])
  | some low => exact .succeed (by simp [Relocation.expr, m.cover])

theorem mirrors_reference : Mirrors m m.expr (reference expr) (reference expr') :=
  .bind mirrors_path fun target => .ifAt (mirrors_splice h target) (.succeed rfl)

theorem mirrors_parenthesized : Mirrors m m.expr (parenthesized expr) (parenthesized expr') := by
  refine .bind .advance fun opening => .bind h fun inner => .bind .expect fun close => .succeed ?_
  simp [Relocation.expr, m.cover]

theorem mirrors_atom : Mirrors m m.expr (atom expr) (atom expr') := by
  refine .bind .peek fun t => ?_
  simp only [Relocation.token_kind]
  split
  · exact .bind .advance fun _ => .succeed rfl
  · exact .ite (.withScope (mirrors_parenthesized h)) (.ite (mirrors_reference h) .unexpected)

theorem mirrors_power : Mirrors m m.expr (power expr) (power expr') :=
  mirrors_leftAssoc (mirrors_atom h)

theorem mirrors_factor : Mirrors m m.expr (factor expr) (factor expr') := by
  refine .bind .peek fun t => ?_
  simp only [Relocation.token_kind]
  split
  · exact mirrors_behindUnary (mirrors_power h)
  · exact mirrors_behindUnary (mirrors_power h)
  · exact mirrors_power h

theorem mirrors_sum : Mirrors m m.expr (sum expr) (sum expr') :=
  mirrors_leftAssoc (mirrors_leftAssoc (mirrors_factor h))

theorem mirrors_comparison : Mirrors m m.expr (comparison expr) (comparison expr') := by
  refine .bind .peek fun t => ?_
  simp only [Relocation.token_kind]
  refine .ite (.bind .advance fun _ => .succeed rfl) ?_
  refine .bind (mirrors_sum h) fun left => .bind .peek fun t => ?_
  simp only [Relocation.token_kind]
  split
  · exact .succeed rfl
  · refine .bind .advance fun _ => .bind (mirrors_sum h) fun right => .succeed ?_
    simp [Relocation.expr, m.cover]

theorem mirrors_relation : Mirrors m m.expr (relation expr) (relation expr') :=
  .bind .currentScope fun _ =>
    .ite (mirrors_comparison h) (.withScope (mirrors_comparison h))

theorem mirrors_boolFactor : Mirrors m m.expr (boolFactor expr) (boolFactor expr') := by
  refine .bind .peek fun t => ?_
  simp only [Relocation.token_kind]
  split
  · exact mirrors_behindUnary (mirrors_relation h)
  · exact mirrors_behindUnary (mirrors_relation h)
  · exact mirrors_relation h

theorem mirrors_choice : Mirrors m m.expr (choice expr) (choice expr') := by
  refine .bind (mirrors_leftAssoc (mirrors_boolFactor h)) fun cond => .ifAt ?_ (.succeed rfl)
  refine .bind .advance fun _ => .bind h fun yes => .bind .expect fun _ => ?_
  refine .bind h fun no => .succeed ?_
  simp [Relocation.expr, m.cover]

end Levels

theorem mirrors_expression : Mirrors m m.expr expression expression := by
  have upTo : ∀ depth, Mirrors m m.expr (expressionUpTo depth) (expressionUpTo depth) := by
    intro depth
    induction depth with
    | zero => exact .outOfFuel
    | succ depth ih => exact mirrors_choice ih
  exact .bind .remaining fun n => upTo (n + 1)

/-! ## Declarations -/

theorem mirrors_widthValue : Mirrors m id widthValue widthValue := by
  refine .bind .peek fun t => ?_
  simp only [Relocation.token_kind]
  split
  · split
    · simp only [Relocation.token_value]
      split
      · exact .succeed rfl
      · exact .fail rfl rfl
    · exact .unexpected
  · exact .succeed rfl
  · exact .unexpected

theorem mirrors_optionalWidth : Mirrors m id optionalWidth optionalWidth := by
  refine .ifAt ?_ (.succeed rfl)
  refine .bind .advance fun _ => .bind mirrors_widthValue fun w => .bind .advance fun _ => ?_
  exact .bind .expect fun _ => .succeed rfl

theorem mirrors_typedName : Mirrors m m.declarator typedName typedName := by
  refine .bind .peek fun t => ?_
  simp only [Relocation.token_kind]
  split
  · exact .unexpected
  · next type _ =>
    refine .bind .advance fun _ => .bind .expect fun n => .bind .declare fun _ => ?_
    refine .bind mirrors_optionalWidth fun w => .bind .lastSpan fun last => ?_
    have declares : Mirrors m id (declareType type n.name w) (declareType type n.name w) :=
      .ite .declareWidth (.succeed rfl)
    refine .bind declares fun _ => .succeed ?_
    simp [Relocation.declarator, m.cover]

theorem mirrors_generic : Mirrors m m.item generic generic := by
  refine .bind .peek fun t => .bind mirrors_typedName fun d => .bind .expect fun _ => ?_
  refine .bind .lastSpan fun last => .succeed ?_
  simp [Relocation.item, Relocation.decl, Relocation.role, Relocation.declarator, Declarator.decl,
    m.cover]

theorem mirrors_port : Mirrors m m.decl port port := by
  refine .bind .peek fun t => ?_
  simp only [Relocation.token_kind]
  split
  · exact .unexpected
  · refine .bind .advance fun _ => .bind mirrors_typedName fun d => .bind .expect fun _ => ?_
    refine .succeed ?_
    simp [Relocation.decl, Relocation.role, Relocation.declarator, Declarator.decl, m.cover]

theorem mirrors_ports : Mirrors m m.item ports ports := by
  refine .bind .advance fun word => .bind .expect fun _ => ?_
  refine .bind (.manyUntil fun _ => mirrors_port) fun ds => .bind .advance fun close => .succeed ?_
  simp [Relocation.item, m.cover]

theorem mirrors_setting : Mirrors m m.setting setting setting := by
  refine .bind .peek fun t => ?_
  simp only [Relocation.token_kind]
  split
  · exact .bind .advance fun _ => .succeed rfl
  · exact .ite (.bind .advance fun _ => .succeed rfl) .unexpected

theorem mirrors_plainDecl {role : Role} (plain : m.role role = role) :
    Mirrors m m.stmt (plainDecl role) (plainDecl role) := by
  refine .bind .advance fun word => .bind mirrors_typedName fun d => .bind .lastSpan fun last => ?_
  refine .bind .expect fun _ => .succeed ?_
  simp [Relocation.stmt, Relocation.decl, Relocation.declarator, Declarator.decl, m.cover, plain]

theorem mirrors_constDecl : Mirrors m m.stmt constDecl constDecl := by
  refine .bind .advance fun word => .bind mirrors_typedName fun d => .bind .expect fun _ => ?_
  refine .bind mirrors_setting fun value => .bind .lastSpan fun last => .bind .expect fun _ => ?_
  refine .succeed ?_
  simp [Relocation.stmt, Relocation.decl, Relocation.role, Relocation.declarator, Declarator.decl,
    m.cover]

/-! ## Instances and assignments -/

theorem mirrors_bindings : Mirrors m (List.map m.binding) bindings bindings := by
  have upTo : ∀ fuel, Mirrors m (List.map m.binding) (bindingsUpTo fuel) (bindingsUpTo fuel) := by
    intro fuel
    induction fuel with
    | zero => exact .outOfFuel
    | succ fuel ih =>
      refine .bind .expect fun n => .bind .expect fun _ => .bind mirrors_setting fun value => ?_
      refine .ifAt ?_ (.succeed rfl)
      exact .bind .advance fun _ => .bind ih fun rest => .succeed rfl
  exact .ifAt (.succeed rfl) (.bind .remaining fun n => upTo (n + 1))

theorem mirrors_instanceOf (type : Segment) :
    Mirrors m m.stmt (instanceOf type) (instanceOf (m.segment type)) := by
  refine .bind .advance fun n => .bind .declare fun _ => .bind .expect fun _ => ?_
  refine .bind .expect fun _ => .bind .expect fun built => .ite ?_ (.fail rfl rfl)
  refine .bind .expect fun _ => .bind mirrors_bindings fun bs => .bind .expect fun _ => ?_
  refine .bind .expect fun semi => .succeed ?_
  simp [Relocation.stmt, Relocation.inst, Relocation.segment, m.cover]

theorem mirrors_assignTo (left : Expr) :
    Mirrors m m.stmt (assignTo left) (assignTo (m.expr left)) := by
  refine .bind .advance fun _ => .bind mirrors_expression fun right => .bind .expect fun semi => ?_
  refine .succeed ?_
  simp [Relocation.stmt, m.cover]

theorem mirrors_assignOrInstance : Mirrors m m.stmt assignOrInstance assignOrInstance := by
  refine .bind (mirrors_reference mirrors_expression) fun left => .bind .peek fun t => ?_
  simp only [Relocation.token_kind]
  split
  · exact mirrors_assignTo left
  · cases left with
    | ref p =>
      obtain ⟨type, tail⟩ := p
      cases tail with
      | nil => exact mirrors_instanceOf type
      | cons => exact .fail rfl rfl
    | _ => exact .fail rfl rfl
  · exact .unexpected

/-! ## Raw blocks -/

theorem mirrors_blockHead {kind : BlockKind} : Mirrors m id (blockHead kind) (blockHead kind) := by
  have upTo : ∀ fuel, Mirrors m id (blockHeader kind fuel) (blockHeader kind fuel) := by
    intro fuel
    induction fuel with
    | zero => exact .outOfFuel
    | succ fuel ih =>
      refine .bind .peek fun t => ?_
      simp only [Relocation.token_kind]
      split
      · exact .succeed rfl
      iterate 4 exact .unexpected
      · exact .bind .advance fun _ => ih
  exact .bind .remaining fun n => upTo (n + 1)

theorem mirrors_blockRest {kind : BlockKind} (opening : Span) :
    Mirrors m id (blockRest kind opening) (blockRest kind (m.span opening)) := by
  have upTo : ∀ fuel depth, Mirrors m id (blockBody kind opening fuel depth)
      (blockBody kind (m.span opening) fuel depth) := by
    intro fuel
    induction fuel with
    | zero =>
      intro depth
      cases depth with
      | zero =>
        simp only [blockBody]
        exact .succeed rfl
      | succ depth => exact .outOfFuel
    | succ fuel ih =>
      intro depth
      cases depth with
      | zero => exact .succeed rfl
      | succ depth =>
        refine .bind .peek fun t => ?_
        simp only [Relocation.token_kind]
        split
        iterate 2 exact .failHere fun _ => .of_cause rfl
        iterate 3 exact .bind .advance fun _ => ih _
  exact .bind .remaining fun n => upTo (n + 1) 1

theorem mirrors_block {kind : BlockKind} : Mirrors m m.stmt (block kind) (block kind) := by
  refine .bind .advance fun word => .bind mirrors_blockHead fun _ => .bind .advance fun opening => ?_
  refine .bind (mirrors_blockRest opening.span) fun _ => .bind .lastSpan fun last => ?_
  refine .bind .sourceBetween fun body => .succeed ?_
  simp [Relocation.stmt, m.cover]

/-! ## Architectures and components -/

theorem mirrors_stmt : Mirrors m m.stmt stmt stmt := by
  refine .bind .peek fun t => ?_
  simp only [Relocation.token_kind]
  split
  · exact mirrors_plainDecl rfl
  · exact mirrors_plainDecl rfl
  · exact mirrors_constDecl
  iterate 3 exact mirrors_block
  · exact mirrors_assignOrInstance
  · exact .unexpected

theorem mirrors_archName : Mirrors m (Option.map m.segment) archName archName := by
  refine .bind .peek fun t => ?_
  simp only [Relocation.token_kind]
  split
  iterate 3 exact .bind .advance fun _ => .succeed rfl
  · exact .succeed rfl

theorem mirrors_arch : Mirrors m m.item arch arch := by
  refine .bind .peek fun start => .bind mirrors_archName fun name? => .bind .expect fun _ => ?_
  refine .bind .expect fun _ => .bind (.manyUntil fun _ => mirrors_stmt) fun stmts => ?_
  refine .bind .advance fun close => .succeed ?_
  cases name? with
  | none => simp [Relocation.item, Relocation.arch, m.cover, m.zero]
  | some s => simp [Relocation.item, Relocation.arch, Relocation.segment, m.cover]

theorem mirrors_item (name : String) (done : List Item) :
    Mirrors m m.item (item name done) (item name (done.map m.item)) := by
  have ports? : (done.map m.item).any (·.ports?.isSome) = done.any (·.ports?.isSome) := by
    simp [List.any_map, Function.comp_def]
  have arch? : (done.map m.item).any (·.arch?.isSome) = done.any (·.arch?.isSome) := by
    simp [List.any_map, Function.comp_def]
  refine .bind .peek fun t => ?_
  simp only [Relocation.token_kind, ports?, arch?]
  split
  iterate 4 exact mirrors_generic
  · exact .ite (.fail rfl rfl) mirrors_ports
  iterate 4 exact .ite (.fail rfl rfl) mirrors_arch
  · exact .unexpected

/-- A component is read in other places as it is read here, or fails there as it does here. -/
theorem mirrors_component {file file' : Nat} :
    Mirrors m (m.component file') (component file) (component file') := by
  refine .bind .expect fun word => .bind .expect fun name => .bind .expect fun _ => ?_
  refine .bind (.manyUntil (mirrors_item name.name)) fun items => .bind .advance fun close => ?_
  intro r source
  refine ⟨source, Prod.ext (congrArg Except.ok ?_) rfl⟩
  simp [Relocation.component, Relocation.onto, Relocation.reading, m.cover]

end Parse
end CircuitCompiler
