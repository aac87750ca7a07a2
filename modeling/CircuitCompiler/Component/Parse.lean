import CircuitCompiler.Expr.Parse

/-!
# The grammar of components

```text
component := 'component' ID '{' (generic | ports | arch)* '}'
generic   := TYPE ID width? ';'
ports     := 'port' '{' (DIR TYPE ID width? ';')* '}'
arch      := name? 'arch' '{' stmt* '}'
stmt      := ('signal' | 'variable') TYPE ID width? ';'
           | 'const' TYPE ID width? '=' constant ';'
           | ID ID '=' 'new' ID '(' bindings? ')' ';'
           | target '<=' expression ';'
           | ('process' | 'generate' | 'connect') … '{' … '}'
```

Names are declared once a component, and a vector must be declared before bits are taken of it. Raw
blocks are read for the balance of their braces only.
-/

namespace CircuitCompiler

/-- The radix of an integer form. -/
def LiteralForm.radix? : LiteralForm → Option Nat
  | .int => some 10
  | .hexInt => some 16
  | .binInt => some 2
  | .binVec | .hexVec => none

namespace Parse

/-- The value between the brackets of a width. -/
def widthValue : Parse Width := do
  let t ← peek
  match t.kind with
  | .literal form =>
    match form.radix? with
    | some radix =>
      match Width.ofNat? (Bytes.number radix t.value) with
      | some w => succeed w
      | none => fail (.badWidth t.text.latin) t.span
    | none => unexpected .width
  | .ident => succeed (.generic t.name)
  | _ => unexpected .width

/-- A width in brackets. -/
def width : Parse Width := do
  let _ ← advance
  let w ← widthValue
  let _ ← advance
  let _ ← expect (.symbol .rbracket) .closeWidth
  succeed w

/-- A width in brackets, if there is one. -/
def optionalWidth : Parse Width := do
  if ← isAt (.symbol .lbracket) then width else succeed .scalar

/-- Records what is declared, if it is a vector. -/
def declareType (type : DataType) (name : String) (w : Width) : Parse Unit :=
  if type = .vec then declareWidth name w else succeed ()

/-- A type, a new name and an optional width. The span runs from the type to the last token. -/
def typedName : Parse Declarator := do
  let t ← peek
  match t.kind.dataType? with
  | none => unexpected .type
  | some type =>
    let _ ← advance
    let n ← expect .ident .nameAfterType
    declare n.name n.span
    let w ← optionalWidth
    let last ← lastSpan
    declareType type n.name w
    succeed ⟨n.name, n.span, type, w, t.span.cover last⟩

/-- A generic. -/
def generic : Parse Item := do
  let t ← peek
  let d ← typedName
  let _ ← expect (.symbol .semicolon) .semicolonAfterGeneric
  let last ← lastSpan
  succeed (.generic (t.span.cover last) (d.decl .generic))

/-- One port. -/
def port : Parse Decl := do
  let t ← peek
  match t.kind.direction? with
  | none => unexpected .direction
  | some dir =>
    let _ ← advance
    let d ← typedName
    let _ ← expect (.symbol .semicolon) .semicolonAfterPort
    succeed { d.decl (.port dir) with span := t.span.cover d.span }

/-- The port block. -/
def ports : Parse Item := do
  let word ← advance
  let _ ← expect (.symbol .lbrace) .openPorts
  let ds ← manyUntil (.symbol .rbrace) fun _ => port
  let close ← advance
  succeed (.ports (word.span.cover close.span) ds)

/-- A literal, or a generic passed on. -/
def setting : Parse Setting := do
  let t ← peek
  match t.kind.constForm? with
  | some form =>
    let _ ← advance
    succeed (.literal t.span ⟨form, t.name⟩)
  | none =>
    if t.kind = .ident then
      let _ ← advance
      succeed (.name ⟨t.name, t.span⟩)
    else unexpected .constant

/-- The declaration of a signal or variable. -/
def plainDecl (role : Role) : Parse Stmt := do
  let word ← advance
  let d ← typedName
  let last ← lastSpan
  let _ ← expect (.symbol .semicolon) .semicolonAfterDeclaration
  succeed (.decl { d.decl role with span := word.span.cover last })

/-- The declaration of a constant. -/
def constDecl : Parse Stmt := do
  let word ← advance
  let d ← typedName
  let _ ← expect (.symbol .assign) .equalsInConst
  let value ← setting
  let last ← lastSpan
  let _ ← expect (.symbol .semicolon) .semicolonAfterDeclaration
  succeed (.decl { d.decl (.constant value) with span := word.span.cover last })

/-- The bindings of an instance; the tokens left bound their number. -/
def bindingsUpTo : Nat → Parse (List Binding)
  | 0 => fun r => fail .parseFailed r.last r
  | fuel + 1 => do
    let n ← expect .ident .genericName
    let _ ← expect (.symbol .assign) .equalsAfterGeneric
    let value ← setting
    let b : Binding := ⟨⟨n.name, n.span⟩, value⟩
    if ← isAt (.symbol .comma) then
      let _ ← advance
      let rest ← bindingsUpTo fuel
      succeed (b :: rest)
    else succeed [b]

/-- The bindings between the parentheses of an instance. -/
def bindings : Parse (List Binding) := do
  if ← isAt (.symbol .rparen) then succeed []
  else
    let n ← remaining
    bindingsUpTo (n + 1)

/-- An instance behind its declared type. -/
def instanceOf (type : Segment) : Parse Stmt := do
  let n ← advance
  declare n.name n.span
  let _ ← expect (.symbol .assign) .equalsAfterInstance
  let _ ← expect (.keyword .new) .new
  let built ← expect .ident .typeAfterNew
  if built.name = type.name then
    let _ ← expect (.symbol .lparen) .openGenerics
    let bs ← bindings
    let _ ← expect (.symbol .rparen) .closeGenerics
    let semi ← expect (.symbol .semicolon) .semicolonAfterInstance
    succeed (.inst (type.span.cover semi.span) ⟨n.name, n.span, type.name, type.span, bs⟩)
  else fail (.instanceTypeMismatch n.name type.name built.name) built.span

/-- An assignment behind its target. -/
def assignTo (left : Expr) : Parse Stmt := do
  let _ ← advance
  let right ← expression
  let semi ← expect (.symbol .semicolon) .semicolonAfterAssignment
  succeed (.assign (left.span.cover semi.span) left right)

/-- A statement that starts with a name: an assignment or an instance. -/
def assignOrInstance : Parse Stmt := do
  let left ← target
  match (← peek).kind with
  | .symbol .sigAssign => assignTo left
  | .ident =>
    match left with
    | .ref ⟨type, []⟩ => instanceOf type
    | _ => fail .instanceTypeNotPlain left.span
  | _ => unexpected .assignmentOrInstance

/-- The tokens between the word of a raw block and its brace; the tokens left bound their number. -/
def blockHeader (kind : BlockKind) : Nat → Parse Unit
  | 0 => fun r => fail .parseFailed r.last r
  | fuel + 1 => do
    match (← peek).kind with
    | .symbol .lbrace => succeed ()
    | .eof | .invalid | .symbol .rbrace | .symbol .semicolon => unexpected (.openBlock kind)
    | _ =>
      let _ ← advance
      blockHeader kind fuel

/-- The tokens between the word of a raw block and its brace. -/
def blockHead (kind : BlockKind) : Parse Unit := do
  let n ← remaining
  blockHeader kind (n + 1)

/-- The tokens of a raw block up to the brace that closes it, below `depth` open braces. -/
def blockBody (kind : BlockKind) (opening : Span) : Nat → Nat → Parse Unit
  | _, 0 => succeed ()
  | 0, _ + 1 => fun r => fail .parseFailed r.last r
  | fuel + 1, depth + 1 => do
    match (← peek).kind with
    | .eof | .invalid => failHere fun _ _ => ⟨.unclosedBlock kind, opening⟩
    | .symbol .lbrace =>
      let _ ← advance
      blockBody kind opening fuel (depth + 2)
    | .symbol .rbrace =>
      let _ ← advance
      blockBody kind opening fuel depth
    | _ =>
      let _ ← advance
      blockBody kind opening fuel (depth + 1)

/-- The tokens of a raw block behind the brace that opens it. -/
def blockRest (kind : BlockKind) (opening : Span) : Parse Unit := do
  let n ← remaining
  blockBody kind opening (n + 1) 1

/-- The source text between two offsets, if raw blocks keep theirs. -/
def sourceBetween (start stop : Nat) : Parse Bytes := fun r =>
  (.ok ((r.source?.map fun s => s.slice start stop).getD []), r)

/-- A raw block. -/
def block (kind : BlockKind) : Parse Stmt := do
  let word ← advance
  blockHead kind
  let opening ← advance
  blockRest kind opening.span
  let last ← lastSpan
  let body ← sourceBetween opening.span.stop last.start
  succeed (.block (word.span.cover last) kind body)

/-- A statement of an architecture. -/
def stmt : Parse Stmt := do
  match (← peek).kind with
  | .keyword .signal => plainDecl .signal
  | .keyword .variableWord => plainDecl .variableRole
  | .keyword .const => constDecl
  | .keyword .process => block .process
  | .keyword .generate => block .generate
  | .keyword .connect => block .connect
  | .ident => assignOrInstance
  | _ => unexpected .statement

/-- The name in front of an architecture, if there is one. -/
def archName : Parse (Option Segment) := do
  let t ← peek
  match t.kind with
  | .ident | .keyword .implementation | .keyword .verification =>
    let _ ← advance
    succeed (some ⟨t.name, t.span⟩)
  | _ => succeed none

/-- An architecture. -/
def arch : Parse Item := do
  let start ← peek
  let name? ← archName
  let _ ← expect (.keyword .arch) .arch
  let _ ← expect (.symbol .lbrace) .openArch
  let stmts ← manyUntil (.symbol .rbrace) fun _ => stmt
  let close ← advance
  let name := (name?.map (·.name)).getD Architecture.defaultName
  let nameSpan := (name?.map (·.span)).getD .zero
  succeed (.arch ⟨start.span.cover close.span, name, nameSpan, stmts⟩)

/-- A part of a component, behind the parts `done`. -/
def item (component : String) (done : List Item) : Parse Item := do
  let t ← peek
  match t.kind with
  | .keyword .int | .keyword .uint | .keyword .vec | .keyword .bool => generic
  | .keyword .port =>
    if done.any (·.ports?.isSome) then fail (.secondPortBlock component) t.span else ports
  | .keyword .arch | .ident | .keyword .implementation | .keyword .verification =>
    if done.any (·.arch?.isSome) then fail (.secondArchitecture component) t.span else arch
  | _ => unexpected .componentItem

/-- A component. -/
def component (file : Nat) : Parse Component := do
  let word ← expect (.keyword .component) .component
  let name ← expect .ident .componentName
  let _ ← expect (.symbol .lbrace) .openComponent
  let items ← manyUntil (.symbol .rbrace) (item name.name)
  let close ← advance
  fun r => succeed
    ⟨name.name, name.span, word.span.cover close.span, file, items, r.widths⟩ r

end Parse
end CircuitCompiler
