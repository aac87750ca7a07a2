import CircuitCompiler.Token.Parse

/-!
# Relocation

A relocation says how the places in a source change, and with them the text that raw blocks keep. It
acts on tokens, on all trees that are made of them, and on readings. Two relocations matter:
`Relocation.same` leaves everything as it is, and `Relocation.erased` forgets all places, so that
what it makes equal differs in places only.
-/

namespace CircuitCompiler

/-- A change of places that respects covering. -/
structure Relocation where
  span : Span → Span
  /-- What becomes of the text of a raw block. -/
  body : Bytes → Bytes
  /-- The source text before, if raw blocks keep theirs. -/
  source? : Option Bytes
  /-- The source text after, if raw blocks keep theirs. -/
  target? : Option Bytes
  zero : span .zero = .zero
  cover (s t : Span) : span (s.cover t) = (span s).cover (span t)
  between (s t : Span) :
    (target?.map fun b => b.slice (span s).stop (span t).start).getD [] =
      body ((source?.map fun b => b.slice s.stop t.start).getD [])

namespace Relocation

/-- Everything stays in its place. -/
def same (source? : Option Bytes) : Relocation where
  span := id
  body := id
  source? := source?
  target? := source?
  zero := rfl
  cover _ _ := rfl
  between _ _ := rfl

/-- All places are forgotten. -/
def erased (source? : Option Bytes) : Relocation where
  span _ := .zero
  body _ := []
  source? := source?
  target? := none
  zero := rfl
  cover _ _ := rfl
  between _ _ := rfl

variable (m : Relocation)

/-! ## Tokens and readings -/

/-- A token in its new place. -/
def token (t : Token) : Token := { t with span := m.span t.span }

@[simp] theorem token_kind (t : Token) : (m.token t).kind = t.kind := rfl

@[simp] theorem token_span (t : Token) : (m.token t).span = m.span t.span := rfl

@[simp] theorem token_name (t : Token) : (m.token t).name = t.name := rfl

@[simp] theorem token_value (t : Token) : (m.token t).value = t.value := rfl

/-- A declared name with its new place. -/
def named (x : String × Span) : String × Span := (x.1, m.span x.2)

/-- A reading with other tokens left, and all else in its new place. -/
def reading (r : Reading) (tokens : List Token) (stop : Stop) : Reading :=
  { r with
    tokens, stop, last := m.span r.last, names := r.names.map m.named, source? := m.target? }

theorem lookup_named (names : List (String × Span)) (name : String) :
    (names.map m.named).lookup name = (names.lookup name).map m.span := by
  induction names with
  | nil => rfl
  | cons x rest ih =>
    obtain ⟨key, span⟩ := x
    simp only [List.map_cons, named, List.lookup_cons]
    split
    · rfl
    · exact ih

/-! ## Expressions -/

/-- A name in its new place. -/
def segment (s : Segment) : Segment := ⟨s.name, m.span s.span⟩

/-- A path in its new place. -/
def path (p : Path) : Path := ⟨m.segment p.head, p.tail.map m.segment⟩

/-- An expression in its new place. -/
def expr : Expr → Expr
  | .ref p => .ref (m.path p)
  | .const s value => .const (m.span s) value
  | .binary s op left right => .binary (m.span s) op (expr left) (expr right)
  | .unary s op operand => .unary (m.span s) op (expr operand)
  | .choice s cond yes no => .choice (m.span s) (expr cond) (expr yes) (expr no)
  | .index s target bit => .index (m.span s) (m.path target) (expr bit)
  | .range s target high low => .range (m.span s) (m.path target) (expr high) (expr low)

theorem segment_names (ss : List Segment) :
    (ss.map m.segment).map (·.name) = ss.map (·.name) := by
  rw [List.map_map]
  rfl

theorem path_names (p : Path) : (m.path p).names = p.names := m.segment_names p.segments

@[simp] theorem path_text (p : Path) : (m.path p).text = p.text := by
  rw [Path.text, path_names, Path.text]

theorem spanOver_segment (s : Segment) (rest : List Segment) :
    Path.spanOver (m.segment s) (rest.map m.segment) = m.span (Path.spanOver s rest) := by
  induction rest generalizing s with
  | nil => rfl
  | cons t rest ih =>
    simp only [List.map_cons, Path.spanOver]
    rw [ih, m.cover]
    rfl

@[simp] theorem path_span (p : Path) : (m.path p).span = m.span p.span :=
  m.spanOver_segment p.head p.tail

@[simp] theorem expr_span (e : Expr) : (m.expr e).span = m.span e.span := by
  cases e with
  | ref p => exact m.path_span p
  | _ => rfl

/-! ## Components -/

/-- A value in its new place. -/
def setting : Setting → Setting
  | .name s => .name (m.segment s)
  | .literal s value => .literal (m.span s) value

/-- A role, with its value in its new place. -/
def role : Role → Role
  | .constant value => .constant (m.setting value)
  | other => other

/-- What is declared in its new place. -/
def declarator (d : Declarator) : Declarator :=
  { d with nameSpan := m.span d.nameSpan, span := m.span d.span }

/-- A declaration in its new place. -/
def decl (d : Decl) : Decl :=
  { d with role := m.role d.role, nameSpan := m.span d.nameSpan, span := m.span d.span }

/-- A binding in its new place. -/
def binding (b : Binding) : Binding := ⟨m.segment b.name, m.setting b.value⟩

/-- An instance in its new place. -/
def inst (i : Instance) : Instance :=
  { i with
    nameSpan := m.span i.nameSpan, typeSpan := m.span i.typeSpan
    bindings := i.bindings.map m.binding }

/-- A statement in its new place. -/
def stmt : Stmt → Stmt
  | .decl d => .decl (m.decl d)
  | .inst s i => .inst (m.span s) (m.inst i)
  | .assign s target value => .assign (m.span s) (m.expr target) (m.expr value)
  | .block s kind body => .block (m.span s) kind (m.body body)

/-- An architecture in its new place. -/
def arch (a : Architecture) : Architecture :=
  { a with span := m.span a.span, nameSpan := m.span a.nameSpan, stmts := a.stmts.map m.stmt }

/-- A part of a component in its new place. -/
def item : Item → Item
  | .generic s d => .generic (m.span s) (m.decl d)
  | .ports s ds => .ports (m.span s) (ds.map m.decl)
  | .arch a => .arch (m.arch a)

/-- A component in its new place, in a file with a number. -/
def component (file : Nat) (c : Component) : Component :=
  { c with
    nameSpan := m.span c.nameSpan, span := m.span c.span, file, items := c.items.map m.item }

@[simp] theorem ports?_item (i : Item) :
    (m.item i).ports? = i.ports?.map (List.map m.decl) := by
  cases i <;> rfl

@[simp] theorem arch?_item (i : Item) : (m.item i).arch? = i.arch?.map m.arch := by
  cases i <;> rfl

@[simp] theorem generic?_item (i : Item) : (m.item i).generic? = i.generic?.map m.decl := by
  cases i <;> rfl

/-! ## Staying in place -/

section Same

variable (source? : Option Bytes)

@[simp] theorem token_same (t : Token) : (same source?).token t = t := rfl

@[simp] theorem segment_same (s : Segment) : (same source?).segment s = s := rfl

theorem map_eq_self {α : Type} {f : α → α} (h : ∀ a, f a = a) (as : List α) : as.map f = as := by
  rw [funext h, List.map_id']

@[simp] theorem path_same (p : Path) : (same source?).path p = p := by
  rw [path, segment_same, map_eq_self (segment_same source?)]

@[simp] theorem expr_same (e : Expr) : (same source?).expr e = e := by
  induction e with
  | ref p => rw [expr, path_same]
  | const => rfl
  | binary s op left right ihl ihr => rw [expr, ihl, ihr]; rfl
  | unary s op operand ih => rw [expr, ih]; rfl
  | choice s cond yes no ihc ihy ihn => rw [expr, ihc, ihy, ihn]; rfl
  | index s target bit ih => rw [expr, path_same, ih]; rfl
  | range s target high low ihh ihl => rw [expr, path_same, ihh, ihl]; rfl

@[simp] theorem setting_same (v : Setting) : (same source?).setting v = v := by
  cases v <;> rfl

@[simp] theorem role_same (x : Role) : (same source?).role x = x := by
  cases x with
  | constant value => rw [role, setting_same]
  | _ => rfl

@[simp] theorem decl_same (d : Decl) : (same source?).decl d = d := by
  rw [decl, role_same]
  rfl

@[simp] theorem binding_same (b : Binding) : (same source?).binding b = b := by
  rw [binding, setting_same]
  rfl

@[simp] theorem inst_same (i : Instance) : (same source?).inst i = i := by
  rw [inst, map_eq_self (binding_same source?)]
  rfl

@[simp] theorem stmt_same (s : Stmt) : (same source?).stmt s = s := by
  cases s with
  | decl d => rw [stmt, decl_same]
  | inst s i => rw [stmt, inst_same]; rfl
  | assign s target value => rw [stmt, expr_same, expr_same]; rfl
  | block => rfl

@[simp] theorem arch_same (a : Architecture) : (same source?).arch a = a := by
  rw [arch, map_eq_self (stmt_same source?)]
  rfl

@[simp] theorem item_same (i : Item) : (same source?).item i = i := by
  cases i with
  | generic s d => rw [item, decl_same]; rfl
  | ports s ds => rw [item, map_eq_self (decl_same source?)]; rfl
  | arch a => rw [item, arch_same]

theorem component_same (c : Component) : (same source?).component c.file c = c := by
  rw [component, map_eq_self (item_same source?)]
  rfl

end Same

end Relocation
end CircuitCompiler
