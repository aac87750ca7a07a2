import CircuitCompiler.Proofs.ReportedExpr

/-!
# Components of parsers that report

The grammar of components for a parser at work, and that each of its parts agrees with the part of
the grammar that reads from a list of tokens. The grammar complains in its own words only about
tokens that it has seen or taken, so never behind a fault.

* `Parser.agrees_stmt`, `Parser.agrees_item`: statements and the parts of components;
* `Parser.agrees_component`: whole components.
-/

namespace CircuitCompiler

namespace Attempt

/-- The value between the brackets of a width. -/
def widthValue : Attempt Width := do
  let t ← peek
  match t.kind with
  | .literal form =>
    match form.radix? with
    | some radix =>
      match Width.ofNat? (Bytes.number radix t.value) with
      | some w => succeed w
      | none => fail (.badWidth t.text.latin) t.span
    | none => unexpected .width
  | .ident => succeed (.generic t.name)
  | _ => unexpected .width

/-- A width in brackets. -/
def width : Attempt Width := do
  let _ ← advance
  let w ← widthValue
  let _ ← advance
  let _ ← expect (.symbol .rbracket) .closeWidth
  succeed w

/-- A width in brackets, if there is one. -/
def optionalWidth : Attempt Width := do
  if ← isAt (.symbol .lbracket) then width else succeed .scalar

/-- Records what is declared, if it is a vector. -/
def declareType (type : DataType) (name : String) (w : Width) : Attempt Unit :=
  if type = .vec then declareWidth name w else succeed ()

/-- A type, a new name and an optional width. -/
def typedName : Attempt Declarator := do
  let t ← peek
  match t.kind.dataType? with
  | none => unexpected .type
  | some type =>
    let _ ← advance
    let n ← expect .ident .nameAfterType
    declare n.name n.span
    let w ← optionalWidth
    let last ← lastSpan
    declareType type n.name w
    succeed ⟨n.name, n.span, type, w, t.span.cover last⟩

/-- A generic. -/
def generic : Attempt Item := do
  let t ← peek
  let d ← typedName
  let _ ← expect (.symbol .semicolon) .semicolonAfterGeneric
  let last ← lastSpan
  succeed (.generic (t.span.cover last) (d.decl .generic))

/-- One port. -/
def port : Attempt Decl := do
  let t ← peek
  match t.kind.direction? with
  | none => unexpected .direction
  | some dir =>
    let _ ← advance
    let d ← typedName
    let _ ← expect (.symbol .semicolon) .semicolonAfterPort
    succeed { d.decl (.port dir) with span := t.span.cover d.span }

/-- The port block. -/
def ports : Attempt Item := do
  let word ← advance
  let _ ← expect (.symbol .lbrace) .openPorts
  let ds ← manyUntil (.symbol .rbrace) fun _ => port
  let close ← advance
  succeed (.ports (word.span.cover close.span) ds)

/-- A literal, or a generic passed on. -/
def setting : Attempt Setting := do
  let t ← peek
  match t.kind.constForm? with
  | some form =>
    let _ ← advance
    succeed (.literal t.span ⟨form, t.name⟩)
  | none =>
    if t.kind = .ident then
      let _ ← advance
      succeed (.name ⟨t.name, t.span⟩)
    else unexpected .constant

/-- The declaration of a signal or variable. -/
def plainDecl (role : Role) : Attempt Stmt := do
  let word ← advance
  let d ← typedName
  let last ← lastSpan
  let _ ← expect (.symbol .semicolon) .semicolonAfterDeclaration
  succeed (.decl { d.decl role with span := word.span.cover last })

/-- The declaration of a constant. -/
def constDecl : Attempt Stmt := do
  let word ← advance
  let d ← typedName
  let _ ← expect (.symbol .assign) .equalsInConst
  let value ← setting
  let last ← lastSpan
  let _ ← expect (.symbol .semicolon) .semicolonAfterDeclaration
  succeed (.decl { d.decl (.constant value) with span := word.span.cover last })

/-- The bindings of an instance. -/
def bindingsUpTo : Nat → Attempt (List Binding)
  | 0 => giveUp
  | rounds + 1 => do
    let n ← expect .ident .genericName
    let _ ← expect (.symbol .assign) .equalsAfterGeneric
    let value ← setting
    let b : Binding := ⟨⟨n.name, n.span⟩, value⟩
    if ← isAt (.symbol .comma) then
      let _ ← advance
      let rest ← bindingsUpTo rounds
      succeed (b :: rest)
    else succeed [b]

/-- A binding, and behind a comma the bindings that `more` reads. -/
def bindingsThen (more : Attempt (List Binding)) : Attempt (List Binding) := do
  let n ← expect .ident .genericName
  let _ ← expect (.symbol .assign) .equalsAfterGeneric
  let value ← setting
  let b : Binding := ⟨⟨n.name, n.span⟩, value⟩
  if ← isAt (.symbol .comma) then
    let _ ← advance
    let rest ← more
    succeed (b :: rest)
  else succeed [b]

/-- The bindings between the parentheses of an instance. -/
def bindings : Attempt (List Binding) := do
  if ← isAt (.symbol .rparen) then succeed [] else bounded bindingsUpTo

/-- An instance behind its declared type. -/
def instanceOf (type : Segment) : Attempt Stmt := do
  let n ← advance
  declare n.name n.span
  let _ ← expect (.symbol .assign) .equalsAfterInstance
  let _ ← expect (.keyword .new) .new
  let built ← expect .ident .typeAfterNew
  if built.name = type.name then
    let _ ← expect (.symbol .lparen) .openGenerics
    let bs ← bindings
    let _ ← expect (.symbol .rparen) .closeGenerics
    let semi ← expect (.symbol .semicolon) .semicolonAfterInstance
    succeed (.inst (type.span.cover semi.span) ⟨n.name, n.span, type.name, type.span, bs⟩)
  else fail (.instanceTypeMismatch n.name type.name built.name) built.span

/-- An assignment behind its target. -/
def assignTo (left : Expr) : Attempt Stmt := do
  let _ ← advance
  let right ← expression
  let semi ← expect (.symbol .semicolon) .semicolonAfterAssignment
  succeed (.assign (left.span.cover semi.span) left right)

/-- A statement that starts with a name: an assignment or an instance. -/
def assignOrInstance : Attempt Stmt := do
  let left ← target
  match (← peek).kind with
  | .symbol .sigAssign => assignTo left
  | .ident =>
    match left with
    | .ref ⟨type, []⟩ => instanceOf type
    | _ => fail .instanceTypeNotPlain left.span
  | _ => unexpected .assignmentOrInstance

/-- The tokens between the word of a raw block and its brace. -/
def blockHeader (kind : BlockKind) : Nat → Attempt Unit
  | 0 => giveUp
  | rounds + 1 => do
    match (← peek).kind with
    | .symbol .lbrace => succeed ()
    | .eof | .invalid | .symbol .rbrace | .symbol .semicolon => unexpected (.openBlock kind)
    | _ =>
      let _ ← advance
      blockHeader kind rounds

/-- The tokens of a raw block up to the brace that closes it, below `depth` open braces. -/
def blockBody (kind : BlockKind) (opening : Span) : Nat → Nat → Attempt Unit
  | _, 0 => succeed ()
  | 0, _ + 1 => giveUp
  | rounds + 1, depth + 1 => do
    match (← peek).kind with
    | .eof | .invalid => fail (.unclosedBlock kind) opening
    | .symbol .lbrace =>
      let _ ← advance
      blockBody kind opening rounds (depth + 2)
    | .symbol .rbrace =>
      let _ ← advance
      blockBody kind opening rounds depth
    | _ =>
      let _ ← advance
      blockBody kind opening rounds (depth + 1)

/-- A raw block. -/
def block (kind : BlockKind) : Attempt Stmt := do
  let word ← advance
  bounded (blockHeader kind)
  let opening ← advance
  bounded fun rounds => blockBody kind opening.span rounds 1
  let last ← lastSpan
  let body ← sourceBetween opening.span.stop last.start
  succeed (.block (word.span.cover last) kind body)

/-- A statement of an architecture. -/
def stmt : Attempt Stmt := do
  match (← peek).kind with
  | .keyword .signal => plainDecl .signal
  | .keyword .variableWord => plainDecl .variableRole
  | .keyword .const => constDecl
  | .keyword .process => block .process
  | .keyword .generate => block .generate
  | .keyword .connect => block .connect
  | .ident => assignOrInstance
  | _ => unexpected .statement

/-- The name in front of an architecture, if there is one. -/
def archName : Attempt (Option Segment) := do
  let t ← peek
  match t.kind with
  | .ident | .keyword .implementation | .keyword .verification =>
    let _ ← advance
    succeed (some ⟨t.name, t.span⟩)
  | _ => succeed none

/-- An architecture. -/
def arch : Attempt Item := do
  let start ← peek
  let name? ← archName
  let _ ← expect (.keyword .arch) .arch
  let _ ← expect (.symbol .lbrace) .openArch
  let stmts ← manyUntil (.symbol .rbrace) fun _ => stmt
  let close ← advance
  let name := (name?.map (·.name)).getD Architecture.defaultName
  let nameSpan := (name?.map (·.span)).getD .zero
  succeed (.arch ⟨start.span.cover close.span, name, nameSpan, stmts⟩)

/-- A part of a component, behind the parts `done`. -/
def item (component : String) (done : List Item) : Attempt Item := do
  let t ← peek
  match t.kind with
  | .keyword .int | .keyword .uint | .keyword .vec | .keyword .bool => generic
  | .keyword .port =>
    if done.any (·.ports?.isSome) then fail (.secondPortBlock component) t.span else ports
  | .keyword .arch | .ident | .keyword .implementation | .keyword .verification =>
    if done.any (·.arch?.isSome) then fail (.secondArchitecture component) t.span else arch
  | _ => unexpected .componentItem

/-- A component. -/
def component (file : Nat) : Attempt Component := do
  let word ← expect (.keyword .component) .component
  let name ← expect .ident .componentName
  let _ ← expect (.symbol .lbrace) .openComponent
  let items ← manyUntil (.symbol .rbrace) (item name.name)
  let close ← advance
  fun p => succeed
    ⟨name.name, name.span, word.span.cover close.span, file, items, p.widths⟩ p

end Attempt

namespace Parser

variable {range : Span} {m n : Nat} {p : Parser} {r : Reading}

/-! ## Declarations -/

theorem agrees_widthValue (follows : p.Follows range n r) :
    Agrees range (Stands range n) Attempt.widthValue Parse.widthValue p r := by
  refine .look follows fun t p kind same looked => ?_
  rw [kind]
  cases found : r.current.kind with
  | literal form =>
    have more := Reading.tokens_ne_nil found (by simp) (by simp)
    rw [same (Reading.fault?_of_tokens more)]
    dsimp only
    cases form.radix? with
    | none => exact .unexpected looked.follows
    | some radix =>
      dsimp only
      cases Width.ofNat? (Bytes.number radix r.current.value) with
      | some w => exact .succeed ⟨more, looked.follows⟩
      | none =>
        exact .fail looked.follows (looked.follows.clean more) (by simp)
          looked.follows.currentInside
  | ident =>
    have more := Reading.tokens_ne_nil found (by simp) (by simp)
    rw [same (Reading.fault?_of_tokens more)]
    exact .succeed ⟨more, looked.follows⟩
  | _ => exact .unexpected looked.follows

theorem agrees_optionalWidth (follows : p.Follows range n r) :
    Agrees range (Reaches range n) Attempt.optionalWidth Parse.optionalWidth p r := by
  refine .ifAt follows (fun p opens looked => ?_) fun p looked => .succeed looked.follows
  obtain ⟨m, rfl⟩ := follows.pos
  refine .bind (.advance looked.follows (Reading.tokens_ne_nil opens (by simp) (by simp))) ?_
  rintro _ p r ⟨-, -, follows⟩
  refine .bind (agrees_widthValue follows) ?_
  rintro w p r ⟨more, follows⟩
  obtain ⟨k, rfl⟩ := follows.pos
  refine .bind (.advance follows more) ?_
  rintro _ p r ⟨-, -, follows⟩
  obtain ⟨l, rfl⟩ := follows.pos
  refine .bind (.expect follows (by simp) (by simp)) ?_
  rintro _ p r ⟨-, -, follows⟩
  exact .succeed (follows.mono (by omega))

theorem agrees_declareType {type : DataType} {name : String} {w : Width}
    (follows : p.Follows range n r) :
    Agrees range (Reaches range n) (Attempt.declareType type name w)
      (Parse.declareType type name w) p r :=
  .ite (fun _ => .declareWidth follows) fun _ => .succeed follows

theorem agrees_typedName (follows : p.Follows range (n + 1) r) :
    Agrees range (Reaches range n) Attempt.typedName Parse.typedName p r := by
  refine .look follows fun t p kind same looked => ?_
  rw [kind]
  cases found : r.current.kind.dataType? with
  | none => exact .unexpected looked.follows
  | some type =>
    have more : r.tokens ≠ [] := Reading.tokens_of_some found rfl rfl
    rw [same (Reading.fault?_of_tokens more)]
    refine .bind (.advance looked.follows more) ?_
    rintro _ p r ⟨-, -, follows⟩
    obtain ⟨m, rfl⟩ := follows.pos
    refine .bind (.expect follows (by simp) (by simp)) ?_
    rintro name p r ⟨inside, clean, follows⟩
    refine .bind (.declare follows clean inside) ?_
    intro _ p r follows
    refine .bind (agrees_optionalWidth follows) ?_
    intro w p r follows
    refine .lastSpan follows (.bind (agrees_declareType follows) ?_)
    intro _ p r follows
    exact .succeed (follows.mono (Nat.le_succ m))

theorem agrees_generic (follows : p.Follows range (n + 1) r) (more : r.tokens ≠ []) :
    Agrees range (Reaches range n) Attempt.generic Parse.generic p r := by
  refine .look follows fun t p _ same looked => ?_
  rw [same (Reading.fault?_of_tokens more)]
  refine .bind (agrees_typedName looked.follows) ?_
  intro d p r follows
  obtain ⟨m, rfl⟩ := follows.pos
  refine .bind (.expect follows (by simp) (by simp)) ?_
  rintro _ p r ⟨-, -, follows⟩
  exact .lastSpan follows (.succeed (follows.mono (Nat.le_succ m)))

theorem agrees_port (follows : p.Follows range (n + 1) r) :
    Agrees range (Reaches range n) Attempt.port Parse.port p r := by
  refine .look follows fun t p kind same looked => ?_
  rw [kind]
  cases found : r.current.kind.direction? with
  | none => exact .unexpected looked.follows
  | some dir =>
    have more : r.tokens ≠ [] := Reading.tokens_of_some found rfl rfl
    rw [same (Reading.fault?_of_tokens more)]
    refine .bind (.advance looked.follows more) ?_
    rintro _ p r ⟨-, -, follows⟩
    obtain ⟨m, rfl⟩ := follows.pos
    refine .bind (agrees_typedName follows) ?_
    intro d p r follows
    obtain ⟨k, rfl⟩ := follows.pos
    refine .bind (.expect follows (by simp) (by simp)) ?_
    rintro _ p r ⟨-, -, follows⟩
    exact .succeed (follows.mono (by omega))

theorem agrees_ports (follows : p.Follows range (n + 1) r) (more : r.tokens ≠ []) :
    Agrees range (Reaches range n) Attempt.ports Parse.ports p r := by
  refine .bind (.advance follows more) ?_
  rintro word p r ⟨-, -, follows⟩
  obtain ⟨m, rfl⟩ := follows.pos
  refine .bind (.expect follows (by simp) (by simp)) ?_
  rintro _ p r ⟨-, -, follows⟩
  refine .bind (.manyUntil follows (by simp) (by simp) fun _ _ _ _ => agrees_port) ?_
  rintro ds p r ⟨more, follows⟩
  obtain ⟨k, rfl⟩ := follows.pos
  refine .bind (.advance follows more) ?_
  rintro close p r ⟨-, -, follows⟩
  exact .succeed (follows.mono (by omega))

theorem agrees_setting (follows : p.Follows range (n + 1) r) :
    Agrees range (Reaches range n) Attempt.setting Parse.setting p r := by
  refine .look follows fun t p kind same looked => ?_
  rw [kind]
  cases found : r.current.kind.constForm? with
  | some form =>
    have more : r.tokens ≠ [] := Reading.tokens_of_some found rfl rfl
    rw [same (Reading.fault?_of_tokens more)]
    refine .bind (.advance looked.follows more) ?_
    rintro _ p r ⟨-, -, follows⟩
    exact .succeed follows
  | none =>
    refine .ite (fun name => ?_) fun _ => .unexpected looked.follows
    have more := Reading.tokens_ne_nil name (by simp) (by simp)
    rw [same (Reading.fault?_of_tokens more)]
    refine .bind (.advance looked.follows more) ?_
    rintro _ p r ⟨-, -, follows⟩
    exact .succeed follows

theorem agrees_plainDecl {role : Role} (follows : p.Follows range (n + 1) r)
    (more : r.tokens ≠ []) :
    Agrees range (Reaches range n) (Attempt.plainDecl role) (Parse.plainDecl role) p r := by
  refine .bind (.advance follows more) ?_
  rintro word p r ⟨-, -, follows⟩
  obtain ⟨m, rfl⟩ := follows.pos
  refine .bind (agrees_typedName follows) ?_
  intro d p r follows
  obtain ⟨k, rfl⟩ := follows.pos
  refine .lastSpan follows (.bind (.expect follows (by simp) (by simp)) ?_)
  rintro _ p r ⟨-, -, follows⟩
  exact .succeed (follows.mono (by omega))

theorem agrees_constDecl (follows : p.Follows range (n + 1) r) (more : r.tokens ≠ []) :
    Agrees range (Reaches range n) Attempt.constDecl Parse.constDecl p r := by
  refine .bind (.advance follows more) ?_
  rintro word p r ⟨-, -, follows⟩
  obtain ⟨m, rfl⟩ := follows.pos
  refine .bind (agrees_typedName follows) ?_
  intro d p r follows
  obtain ⟨k, rfl⟩ := follows.pos
  refine .bind (.expect follows (by simp) (by simp)) ?_
  rintro _ p r ⟨-, -, follows⟩
  obtain ⟨l, rfl⟩ := follows.pos
  refine .bind (agrees_setting follows) ?_
  intro value p r follows
  obtain ⟨o, rfl⟩ := follows.pos
  refine .lastSpan follows (.bind (.expect follows (by simp) (by simp)) ?_)
  rintro _ p r ⟨-, -, follows⟩
  exact .succeed (follows.mono (by omega))

/-! ## Instances and assignments -/

theorem agrees_bindingsThen {more : Attempt (List Binding)} {rounds' : Nat}
    (behind : ∀ {m : Nat} {p : Parser} {r : Reading}, m < n → p.Follows range (m + 1) r →
      Agrees range (Reaches range (m + 1)) more (Parse.bindingsUpTo rounds') p r)
    (follows : p.Follows range (n + 1) r) :
    Agrees range (Reaches range (n + 1)) (Attempt.bindingsThen more)
      (Parse.bindingsUpTo (rounds' + 1)) p r := by
  refine .bind (.expect follows (by simp) (by simp)) ?_
  rintro name p r ⟨-, -, follows⟩
  obtain ⟨k, rfl⟩ := follows.pos
  refine .bind (.expect follows (by simp) (by simp)) ?_
  rintro _ p r ⟨-, -, follows⟩
  obtain ⟨l, rfl⟩ := follows.pos
  refine .bind (agrees_setting follows) ?_
  intro value p r follows
  refine .ifAt follows (fun p comma looked => ?_) fun p looked => ?_
  · obtain ⟨o, rfl⟩ := follows.pos
    refine .bind (.advance looked.follows (Reading.tokens_ne_nil comma (by simp) (by simp))) ?_
    rintro _ p r ⟨-, -, follows⟩
    obtain ⟨i, rfl⟩ := follows.pos
    refine .bind (behind (by omega) follows) ?_
    intro rest p r follows
    exact .succeed (follows.mono (by omega))
  · exact .succeed (looked.follows.mono (by omega))

theorem agrees_bindingsUpTo (rounds : Nat) : ∀ {rounds' n : Nat} {p : Parser} {r : Reading},
    n ≤ rounds → n ≤ rounds' → p.Follows range n r →
      Agrees range (Reaches range n) (Attempt.bindingsUpTo rounds)
        (Parse.bindingsUpTo rounds') p r := by
  induction rounds with
  | zero =>
    intro rounds' n p r enough _ follows
    have := follows.few
    omega
  | succ rounds ih =>
    intro rounds' n p r enough enough' follows
    obtain ⟨m, rfl⟩ := follows.pos
    obtain ⟨less, rfl⟩ : ∃ less, rounds' = less + 1 := ⟨rounds' - 1, by omega⟩
    exact agrees_bindingsThen (fun later follows => ih (by omega) (by omega) follows) follows

theorem agrees_bindings (follows : p.Follows range n r) :
    Agrees range (Reaches range n) Attempt.bindings Parse.bindings p r := by
  refine .ifAt follows (fun p _ looked => .succeed looked.follows) fun p looked => ?_
  refine .bounded Parse.bindingsUpTo looked.follows fun rounds enough => ?_
  exact (agrees_bindingsUpTo rounds enough (Nat.le_refl _) looked.follows.tight).reaches
    looked.follows.few

theorem agrees_instanceOf {type : Segment} (follows : p.Follows range (n + 1) r)
    (more : r.tokens ≠ []) :
    Agrees range (Reaches range n) (Attempt.instanceOf type) (Parse.instanceOf type) p r := by
  refine .bind (.advance follows more) ?_
  rintro name p r ⟨inside, clean, follows⟩
  refine .bind (.declare follows clean inside) ?_
  intro _ p r follows
  obtain ⟨m, rfl⟩ := follows.pos
  refine .bind (.expect follows (by simp) (by simp)) ?_
  rintro _ p r ⟨-, -, follows⟩
  obtain ⟨k, rfl⟩ := follows.pos
  refine .bind (.expect follows (by simp) (by simp)) ?_
  rintro _ p r ⟨-, -, follows⟩
  obtain ⟨l, rfl⟩ := follows.pos
  refine .bind (.expect follows (by simp) (by simp)) ?_
  rintro built p r ⟨there, clean, follows⟩
  refine .ite (fun _ => ?_) fun _ => .fail follows clean (by simp) there
  obtain ⟨o, rfl⟩ := follows.pos
  refine .bind (.expect follows (by simp) (by simp)) ?_
  rintro _ p r ⟨-, -, follows⟩
  refine .bind (agrees_bindings follows) ?_
  intro bs p r follows
  obtain ⟨i, rfl⟩ := follows.pos
  refine .bind (.expect follows (by simp) (by simp)) ?_
  rintro _ p r ⟨-, -, follows⟩
  obtain ⟨j, rfl⟩ := follows.pos
  refine .bind (.expect follows (by simp) (by simp)) ?_
  rintro semi p r ⟨-, -, follows⟩
  exact .succeed (follows.mono (by omega))

theorem agrees_assignTo {left : Expr} (follows : p.Follows range (n + 1) r)
    (more : r.tokens ≠ []) :
    Agrees range (Reaches range n) (Attempt.assignTo left) (Parse.assignTo left) p r := by
  refine .bind (.advance follows more) ?_
  rintro _ p r ⟨-, -, follows⟩
  refine .bind ((agrees_expression n).call (Nat.le_refl n) follows) ?_
  rintro right p r ⟨-, follows⟩
  obtain ⟨m, rfl⟩ := follows.pos
  refine .bind (.expect follows (by simp) (by simp)) ?_
  rintro semi p r ⟨-, -, follows⟩
  exact .succeed (follows.mono (Nat.le_succ m))

theorem agrees_assignOrInstance (follows : p.Follows range (n + 1) r) :
    Agrees range (Reaches range n) Attempt.assignOrInstance Parse.assignOrInstance p r := by
  refine .bind (agrees_target follows) ?_
  rintro left p r ⟨inside, follows⟩
  refine .look follows fun t p kind _ looked => ?_
  rw [kind]
  obtain ⟨m, rfl⟩ := follows.pos
  cases found : r.current.kind with
  | symbol s =>
    have more := Reading.tokens_ne_nil found (by simp) (by simp)
    cases s with
    | sigAssign => exact (agrees_assignTo looked.follows more).reaches (Nat.le_succ m)
    | _ => exact .unexpected looked.follows
  | ident =>
    have more := Reading.tokens_ne_nil found (by simp) (by simp)
    have refused : Agrees range (Reaches range (m + 1))
        (Attempt.fail .instanceTypeNotPlain left.span : Attempt Stmt)
        (Parse.fail .instanceTypeNotPlain left.span) p r :=
      .fail looked.follows (looked.follows.clean more) (by simp) inside
    cases left with
    | ref type =>
      obtain ⟨head, rest⟩ := type
      cases rest with
      | nil => exact (agrees_instanceOf looked.follows more).reaches (Nat.le_succ m)
      | cons => exact refused
    | _ => exact refused
  | _ => exact .unexpected looked.follows

/-! ## Raw blocks -/

theorem agrees_blockHeader {kind : BlockKind} (rounds : Nat) :
    ∀ {rounds' n : Nat} {p : Parser} {r : Reading}, n ≤ rounds → n ≤ rounds' →
      p.Follows range n r →
        Agrees range (Stands range n) (Attempt.blockHeader kind rounds)
          (Parse.blockHeader kind rounds') p r := by
  induction rounds with
  | zero =>
    intro rounds' n p r enough _ follows
    have := follows.few
    omega
  | succ rounds ih =>
    intro rounds' n p r enough enough' follows
    obtain ⟨m, rfl⟩ := follows.pos
    obtain ⟨less, rfl⟩ : ∃ less, rounds' = less + 1 := ⟨rounds' - 1, by omega⟩
    refine .look follows fun t p found _ looked => ?_
    rw [found]
    have onward : r.tokens ≠ [] → Agrees range (Stands range (m + 1))
        (Attempt.advance >>= fun _ => Attempt.blockHeader kind rounds)
        (Parse.advance >>= fun _ => Parse.blockHeader kind less) p r := by
      intro more
      refine .bind (.advance looked.follows more) ?_
      rintro _ p r ⟨-, -, follows⟩
      exact (ih (by omega) (by omega) follows).stands (Nat.le_succ m)
    cases ahead : r.current.kind with
    | invalid | eof => exact .unexpected looked.follows
    | symbol s =>
      have more := Reading.tokens_ne_nil ahead (by simp) (by simp)
      cases s with
      | lbrace => exact .succeed ⟨more, looked.follows⟩
      | rbrace | semicolon => exact .unexpected looked.follows
      | _ => exact onward more
    | _ => exact onward (Reading.tokens_ne_nil ahead (by simp) (by simp))

theorem agrees_blockBody {kind : BlockKind} {opening : Span} (inside : opening.Inside range)
    (rounds : Nat) : ∀ {rounds' n depth : Nat} {p : Parser} {r : Reading}, n ≤ rounds →
      n ≤ rounds' → p.Follows range n r →
        Agrees range (Reaches range n) (Attempt.blockBody kind opening rounds depth)
          (Parse.blockBody kind opening rounds' depth) p r := by
  induction rounds with
  | zero =>
    intro rounds' n depth p r enough _ follows
    have := follows.few
    omega
  | succ rounds ih =>
    intro rounds' n depth p r enough enough' follows
    obtain ⟨m, rfl⟩ := follows.pos
    obtain ⟨less, rfl⟩ : ∃ less, rounds' = less + 1 := ⟨rounds' - 1, by omega⟩
    cases depth with
    | zero => exact .succeed follows
    | succ depth =>
      refine .look follows fun t p found _ looked => ?_
      -- behind a token of the block the rest of it is read
      have onward : ∀ {depth : Nat}, r.tokens ≠ [] →
          Agrees range (Reaches range (m + 1))
            (Attempt.advance >>= fun _ => Attempt.blockBody kind opening rounds depth)
            (Parse.advance >>= fun _ => Parse.blockBody kind opening less depth) p r := by
        intro depth more
        refine .bind (.advance looked.follows more) ?_
        rintro _ p r ⟨-, -, follows⟩
        exact (ih (by omega) (by omega) follows).reaches (Nat.le_succ m)
      rw [found]
      cases ahead : r.current.kind with
      | invalid | eof => exact .failHere looked (by simp) (fun _ => inside) fun _ => rfl
      | symbol s =>
        have more := Reading.tokens_ne_nil ahead (by simp) (by simp)
        -- a brace only changes the depth at which the rest is read
        cases s <;> exact onward more
      | _ => exact onward (Reading.tokens_ne_nil ahead (by simp) (by simp))

theorem agrees_block {kind : BlockKind} (follows : p.Follows range (n + 1) r)
    (more : r.tokens ≠ []) :
    Agrees range (Reaches range n) (Attempt.block kind) (Parse.block kind) p r := by
  refine .bind (.advance follows more) ?_
  rintro word p r ⟨-, -, follows⟩
  refine .bind (.bounded (Parse.blockHeader kind) follows fun rounds enough =>
    agrees_blockHeader rounds enough (Nat.le_refl _) follows.tight) ?_
  rintro _ p₁ r₁ ⟨more, behind⟩
  have follows := behind.mono follows.few
  obtain ⟨m, rfl⟩ := follows.pos
  refine .bind (.advance follows more) ?_
  rintro opening p r ⟨inside, -, follows⟩
  refine .bind (.bounded (Parse.blockBody kind opening.span · 1) follows fun rounds enough =>
    agrees_blockBody inside rounds enough (Nat.le_refl _) follows.tight) ?_
  intro _ p₁ r₁ behind
  have follows := behind.mono follows.few
  refine .lastSpan follows (.sourceBetween follows fun body => ?_)
  exact .succeed (follows.mono (Nat.le_succ m))

/-! ## Architectures and components -/

theorem agrees_stmt (follows : p.Follows range (n + 1) r) :
    Agrees range (Reaches range n) Attempt.stmt Parse.stmt p r := by
  refine .look follows fun t p kind _ looked => ?_
  rw [kind]
  cases word : r.current.kind with
  | ident => exact agrees_assignOrInstance looked.follows
  | keyword w =>
    have more := Reading.tokens_ne_nil word (by simp) (by simp)
    cases w with
    | signal | variableWord => exact agrees_plainDecl looked.follows more
    | const => exact agrees_constDecl looked.follows more
    | process | generate | connect => exact agrees_block looked.follows more
    | _ => exact .unexpected looked.follows
  | _ => exact .unexpected looked.follows

theorem agrees_archName (follows : p.Follows range n r) :
    Agrees range (Reaches range n) Attempt.archName Parse.archName p r := by
  refine .look follows fun t p kind same looked => ?_
  obtain ⟨m, rfl⟩ := follows.pos
  have name : r.tokens ≠ [] → Agrees range (Reaches range (m + 1))
      (Attempt.advance >>= fun _ => Attempt.succeed (some (Segment.mk t.name t.span)))
      (Parse.advance >>= fun _ => Parse.succeed (some (Segment.mk r.current.name r.current.span)))
      p r := by
    intro more
    rw [same (Reading.fault?_of_tokens more)]
    refine .bind (.advance looked.follows more) ?_
    rintro _ p r ⟨-, -, follows⟩
    exact .succeed (follows.mono (Nat.le_succ m))
  rw [kind]
  cases found : r.current.kind with
  | ident => exact name (Reading.tokens_ne_nil found (by simp) (by simp))
  | keyword w =>
    cases w with
    | implementation | verification =>
      exact name (Reading.tokens_ne_nil found (by simp) (by simp))
    | _ => exact .succeed looked.follows
  | _ => exact .succeed looked.follows

theorem agrees_arch (follows : p.Follows range (n + 1) r) (more : r.tokens ≠ []) :
    Agrees range (Reaches range n) Attempt.arch Parse.arch p r := by
  refine .look follows fun t p _ same looked => ?_
  rw [same (Reading.fault?_of_tokens more)]
  refine .bind (agrees_archName looked.follows) ?_
  intro name? p r follows
  refine .bind (.expect follows (by simp) (by simp)) ?_
  rintro _ p r ⟨-, -, follows⟩
  obtain ⟨m, rfl⟩ := follows.pos
  refine .bind (.expect follows (by simp) (by simp)) ?_
  rintro _ p r ⟨-, -, follows⟩
  refine .bind (.manyUntil follows (by simp) (by simp) fun _ _ _ _ => agrees_stmt) ?_
  rintro stmts p r ⟨more, follows⟩
  obtain ⟨k, rfl⟩ := follows.pos
  refine .bind (.advance follows more) ?_
  rintro close p r ⟨-, -, follows⟩
  exact .succeed (follows.mono (by omega))

theorem agrees_item {name : String} {done : List Item} (follows : p.Follows range (n + 1) r) :
    Agrees range (Reaches range n) (Attempt.item name done) (Parse.item name done) p r := by
  refine .look follows fun t p kind same looked => ?_
  have architecture : r.tokens ≠ [] → Agrees range (Reaches range n)
      (if done.any (·.arch?.isSome) then Attempt.fail (.secondArchitecture name) t.span
        else Attempt.arch)
      (if done.any (·.arch?.isSome) then Parse.fail (.secondArchitecture name) r.current.span
        else Parse.arch) p r := by
    intro more
    rw [same (Reading.fault?_of_tokens more)]
    refine .ite (fun _ => ?_) fun _ => agrees_arch looked.follows more
    exact .fail looked.follows (looked.follows.clean more) (by simp) looked.follows.currentInside
  rw [kind]
  cases word : r.current.kind with
  | ident => exact architecture (Reading.tokens_ne_nil word (by simp) (by simp))
  | keyword w =>
    have more := Reading.tokens_ne_nil word (by simp) (by simp)
    cases w with
    | int | uint | vec | bool => exact agrees_generic looked.follows more
    | port =>
      rw [same (Reading.fault?_of_tokens more)]
      refine .ite (fun _ => ?_) fun _ => agrees_ports looked.follows more
      exact .fail looked.follows (looked.follows.clean more) (by simp) looked.follows.currentInside
    | arch | implementation | verification => exact architecture more
    | _ => exact .unexpected looked.follows
  | _ => exact .unexpected looked.follows

/-- A whole component: behind it nothing has been reported. -/
theorem agrees_component {file : Nat} (follows : p.Follows range (n + 1) r) :
    Agrees range (fun c p' r' => c.nameSpan.Inside range ∧ p'.lexer.fault = none ∧
      p'.Follows range n r') (Attempt.component file) (Parse.component file) p r := by
  refine .bind (.expect follows (by simp) (by simp)) ?_
  rintro word p r ⟨-, -, follows⟩
  obtain ⟨m, rfl⟩ := follows.pos
  refine .bind (.expect follows (by simp) (by simp)) ?_
  rintro name p r ⟨inside, -, follows⟩
  obtain ⟨k, rfl⟩ := follows.pos
  refine .bind (.expect follows (by simp) (by simp)) ?_
  rintro _ p r ⟨-, -, follows⟩
  refine .bind (.manyUntil follows (by simp) (by simp) fun _ _ _ _ => agrees_item) ?_
  rintro items p r ⟨more, follows⟩
  obtain ⟨l, rfl⟩ := follows.pos
  refine .bind (.advance follows more) ?_
  rintro close p r ⟨-, clean, follows⟩
  show Ends range _ (Attempt.succeed _ p) _
  rw [follows.widths]
  exact .ok ⟨inside, clean, follows.mono (by omega)⟩

end Parser
end CircuitCompiler
