import CircuitCompiler.Proofs.Identifiers
import CircuitCompiler.Proofs.Nesting
import CircuitCompiler.Proofs.Reporting

/-!
# What is read lies where it was read

The tokens of a source stand one behind the other, each with its text under its span. What a step of
the grammar reads from them lies between the last token before the step and the last token of the
step: its declarations, its bit selections and the trees of its expressions.

* `Stream.scan_lies`, `Stream.scan_apart`: the tokens of a source;
* `Reading.Laid`: a reading of such tokens, whose vectors have declared names;
* `Reading.Brings`: what is read between two readings, with `Reading.Brings.append`;
* `Parse.took_advance`, `Parse.took_expect`: single tokens.
-/

namespace CircuitCompiler

/-! ## Tokens of a source -/

/-- The token is spelled as its kind demands, and its text is what the file has under its span. -/
structure Token.Lies (f : SourceFile) (t : Token) : Prop where
  between : t.span.Between f 0 f.content.length
  text : f.content.slice t.span.start t.span.stop = t.text
  spelled : t.Spelled

namespace Token.Lies

variable {f : SourceFile} {t : Token}

theorem inScope (h : t.Lies f) (scope : Scope) : (t.inScope scope).Lies f :=
  ⟨h.between, h.text, h.spelled.inScope scope⟩

/-- The file has the name of an identifier at its place. -/
theorem name (h : t.Lies f) (kind : t.kind = .ident) :
    (f.content.slice t.span.start t.span.stop).latin = t.name ∧ IsName t.name := by
  obtain ⟨same, name⟩ := h.spelled.ident kind
  rw [h.text]
  exact ⟨same.symm, same ▸ name⟩

/-- The file has a constant at its place as it is written. -/
theorem constant (h : t.Lies f) {form : ConstForm} (found : t.kind.constForm? = some form) :
    (f.content.slice t.span.start t.span.stop).latin = (Constant.mk form t.name).text := by
  rw [h.text]
  exact (Kind.Writes.constant h.spelled found).1

end Token.Lies

/-- The bytes in the middle of a slice. -/
theorem slice_middle {b x y z : Bytes} {start stop : Nat} (whole : b.slice start stop = x ++ y ++ z)
    (more : y ≠ []) : b.slice (start + x.length) (start + x.length + y.length) = y := by
  have pos : 0 < y.length := List.length_pos_iff.mpr more
  have size := congrArg List.length whole
  simp only [Bytes.slice, List.length_drop, List.length_take, List.length_append] at size
  have inside : min (start + x.length + y.length) stop = start + x.length + y.length := by omega
  calc b.slice (start + x.length) (start + x.length + y.length)
      = ((b.take stop).take (start + x.length + y.length)).drop (start + x.length) := by
        rw [List.take_take, inside, Bytes.slice]
    _ = ((b.slice start stop).drop x.length).take y.length := by
        rw [Bytes.slice, List.drop_drop, List.drop_take, Nat.add_sub_cancel_left]
    _ = y := by
        rw [whole, List.append_assoc, List.drop_left, List.take_left]

namespace Scan

/-- The bytes of a token stand between those before it and what is left. -/
theorem read_text {scope : Scope} {file pos : Nat} {b : Bytes}
    (fine : (read scope file pos b).fault = none)
    (more : (read scope file pos b).token.kind ≠ .eof) :
    (read scope file pos b).token.text ≠ [] ∧
      ∃ skipped, b = skipped ++ (read scope file pos b).token.text ++ (read scope file pos b).rest ∧
        (read scope file pos b).token.span =
          ⟨file, pos + skipped.length,
            pos + skipped.length + (read scope file pos b).token.text.length⟩ := by
  obtain ⟨c, tail, kind, text, value, taken⟩ := tokenStep_of_read fine more
  obtain ⟨skipped, hb, hpos, -⟩ := gap_split file pos b
  obtain ⟨behind, htext⟩ := lexeme_prefix scope c tail
  have size := lexeme_text_pos scope c tail
  simp only [taken.found, Lexeme.text] at htext size
  rw [taken.more] at hb
  rw [taken.step]
  refine ⟨List.length_pos_iff.mp size, skipped, ?_, ?_⟩
  · simp only
    rw [hb, ← htext, List.drop_left, List.append_assoc]
  · simp only [hpos]

end Scan

namespace Stream
open Scan

/-- The file has the text of every token of a stream at its place, and it is not empty. -/
theorem scan_text {f : SourceFile} {limit pos : Nat} {b : Bytes}
    (hb : b = f.content.slice pos limit) :
    ∀ t ∈ (scan f.id pos b).tokens,
      f.content.slice t.span.start t.span.stop = t.text ∧ t.span.start < t.span.stop := by
  fun_induction scan f.id pos b with
  | case1 pos b step more behind ih =>
    obtain ⟨taken, split, hpos⟩ := read_split .general f.id pos b
    have rest : step.rest = f.content.slice step.pos limit := by
      have skip := congrArg (List.drop taken.length) (split.symm.trans hb)
      rw [List.drop_left, Bytes.slice, List.drop_drop] at skip
      rw [show step.pos = pos + taken.length from hpos]
      exact skip
    refine List.forall_mem_cons.mpr ⟨?_, ih rest⟩
    obtain ⟨text, skipped, split, span⟩ := read_text more.1 more.2
    have size := List.length_pos_iff.mpr text
    simp only [Token.bare, step, span]
    exact ⟨slice_middle (hb.symm.trans split) text, by omega⟩
  | case2 =>
    rintro t ⟨⟩
  | case3 =>
    rintro t ⟨⟩

/-- The tokens of what a cursor has still to read lie in its file. -/
theorem scan_lies (c : Cursor) : ∀ t ∈ (ofCursor c).tokens, t.Lies c.file := by
  intro t ht
  have inside := (scan_inside c.file.id c.off c.rest).tokens t ht
  have rest : c.rest = c.file.content.slice c.off c.limit := rfl
  obtain ⟨text, pos⟩ := scan_text rest t ht
  have stop : t.span.stop ≤ c.file.content.length := by
    have front := inside.start
    have back := inside.stop
    simp only [Cursor.rest, Bytes.slice, List.length_drop, List.length_take] at front back
    omega
  exact ⟨⟨inside.file, Nat.zero_le _, pos, stop⟩, text, scan_spelled t ht⟩

/-- The tokens of a stream end one before the other starts. -/
theorem scan_apart (file pos : Nat) (b : Bytes) :
    (scan file pos b).tokens.Pairwise fun t u => t.span.stop ≤ u.span.start := by
  fun_induction scan file pos b with
  | case1 pos b step more behind ih =>
    obtain ⟨span, -, -, -⟩ := read_token more.1 more.2
    refine List.pairwise_cons.mpr ⟨?_, ih⟩
    intro u later
    obtain ⟨from_, -⟩ := scan_token later
    simp only [Token.bare, step, span]
    exact from_
  | case2 => exact .nil
  | case3 => exact .nil

end Stream

/-! ## Declarations and bit selections -/

/-- The declarations of a statement. -/
def Stmt.decls : Stmt → List Decl
  | decl d => [d]
  | inst .. | assign .. | block .. => []

/-- The declarations of a part of a component, in source order. -/
def Item.decls : Item → List Decl
  | generic _ d => [d]
  | ports _ ds => ds
  | arch a => a.stmts.flatMap Stmt.decls

/-- The declarations of a component, in source order. -/
def Component.decls (c : Component) : List Decl := c.items.flatMap Item.decls

/-- The vectors among declarations and their widths. -/
def vectorsOf (ds : List Decl) : Widths :=
  (ds.filter fun d => d.type = .vec).map fun d => (d.name, d.width)

/-- The targets of the bit selections in an expression. -/
def Expr.splices : Expr → List Path
  | ref _ | const .. => []
  | binary _ _ left right => left.splices ++ right.splices
  | unary _ _ operand => operand.splices
  | choice _ cond yes no => cond.splices ++ yes.splices ++ no.splices
  | index _ target bit => target :: bit.splices
  | range _ target high low => target :: (high.splices ++ low.splices)

/-- The targets of the bit selections in a statement. -/
def Stmt.splices : Stmt → List Path
  | assign _ target value => target.splices ++ value.splices
  | decl _ | inst .. | block .. => []

/-- The targets of the bit selections in a part of a component. -/
def Item.splices : Item → List Path
  | generic .. | ports .. => []
  | arch a => a.stmts.flatMap Stmt.splices

/-- The targets of all bit selections in a component, in source order. -/
def Component.splices (c : Component) : List Path := c.items.flatMap Item.splices

theorem vectorsOf_append (ds es : List Decl) :
    vectorsOf (ds ++ es) = vectorsOf ds ++ vectorsOf es := by
  simp only [vectorsOf, List.filter_append, List.map_append]

theorem has_vectorsOf {ds : List Decl} {name : String} :
    (vectorsOf ds).has name = true ↔ ∃ d ∈ ds, d.type = .vec ∧ d.name = name := by
  simp [vectorsOf, Widths.has]

theorem has_append (ws vs : Widths) (name : String) :
    (ws ++ vs : Widths).has name = (ws.has name || vs.has name) :=
  List.any_append

/-- A path that is written as a name is a single name. -/
theorem Path.tail_of_isName {p : Path} (h : IsName p.text) : p.tail = [] := by
  obtain ⟨head, tail⟩ := p
  cases tail with
  | nil => rfl
  | cons s rest =>
    have dot : '.' ∈ (Path.text ⟨head, s :: rest⟩).toList := by
      have one : ".".toList = ['.'] := by decide
      simp [Path.text, names, segments, String.toList_intercalate, one]
    cases h.chars '.' dot

/-! ## Readings of a source -/

namespace Reading

/-- What is still to be read are tokens of the file, one behind the other, and behind the last token
taken. The vectors declared so far are among the names declared so far, which are names. -/
structure Laid (f : SourceFile) (r : Reading) : Prop where
  lies : ∀ t ∈ r.tokens, t.Lies f
  apart : r.tokens.Pairwise fun t u => t.span.stop ≤ u.span.start
  ahead : ∀ t ∈ r.tokens, r.last.stop ≤ t.span.start
  file : r.last.file = f.id
  order : r.last.start ≤ r.last.stop
  known : ∀ w ∈ r.widths, w.1 ∈ r.declared
  named : ∀ n ∈ r.declared, IsName n

/-- From `r` to `r'` tokens of the file are taken. -/
structure Onward (f : SourceFile) (r r' : Reading) : Prop where
  laid : r'.Laid f
  start : r.last.start ≤ r'.last.start
  stop : r.last.stop ≤ r'.last.stop
  names : r.declared ⊆ r'.declared

/-- From `r` to `r'` tokens of the file are taken that declare no vector. -/
structure Goes (f : SourceFile) (r r' : Reading) : Prop extends r.Onward f r' where
  widths : r'.widths = r.widths

end Reading

/-- What is read of a source: declarations, the targets of bit selections and expressions. -/
structure Matter where
  decls : List Decl
  splices : List Path
  trees : List NodeTree

namespace Matter

/-- One matter after the other. -/
def append (m m' : Matter) : Matter :=
  ⟨m.decls ++ m'.decls, m.splices ++ m'.splices, m.trees ++ m'.trees⟩

/-- The matter of things, one after the other. -/
def all {α : Type} (matter : α → Matter) (as : List α) : Matter :=
  ⟨as.flatMap fun a => (matter a).decls, as.flatMap fun a => (matter a).splices,
    as.flatMap fun a => (matter a).trees⟩

theorem all_append {α : Type} (matter : α → Matter) (as : List α) (a : α) :
    all matter (as ++ [a]) = (all matter as).append (matter a) := by
  simp [all, append]

theorem all_declarations (ds : List Decl) : all (fun d => ⟨[d], [], []⟩) ds = ⟨ds, [], []⟩ := by
  induction ds with
  | nil => rfl
  | cons d rest ih => simp_all [all]

end Matter

namespace Reading

/-- Between `r` and `r'` the matter `m` is read: its declarations lie there, in source order, and
its vectors are declared; bits are taken of single names that were declared as vectors before; and
its trees nest. -/
structure Brings (f : SourceFile) (r r' : Reading) (m : Matter) : Prop extends r.Onward f r' where
  widths : r'.widths = r.widths ++ vectorsOf m.decls
  decls : ∀ d ∈ m.decls, d.span.Between f r.last.stop r'.last.stop
  apart : m.decls.Pairwise fun d e => d.span.stop ≤ e.span.start
  splices : ∀ p ∈ m.splices, p.tail = [] ∧ r.last.stop ≤ p.span.start ∧
    (r.widths.has p.text = true ∨
      ∃ d ∈ m.decls, d.type = .vec ∧ d.name = p.text ∧ d.span.stop ≤ p.span.start)
  trees : ∀ t ∈ m.trees, t.Nests f.content

variable {f : SourceFile} {r r₁ r₂ : Reading} {m m' : Matter}

/-! ### Steps one after the other -/

theorem Onward.trans (h : r.Onward f r₁) (h' : r₁.Onward f r₂) : r.Onward f r₂ where
  laid := h'.laid
  start := Nat.le_trans h.start h'.start
  stop := Nat.le_trans h.stop h'.stop
  names := List.Subset.trans h.names h'.names

theorem Goes.refl (laid : r.Laid f) : r.Goes f r where
  laid := laid
  start := Nat.le_refl _
  stop := Nat.le_refl _
  names := List.Subset.refl _
  widths := rfl

theorem Goes.trans (h : r.Goes f r₁) (h' : r₁.Goes f r₂) : r.Goes f r₂ where
  toOnward := h.toOnward.trans h'.toOnward
  widths := h'.widths.trans h.widths

/-- Steps without matter. -/
theorem Goes.brings (h : r.Goes f r₁) : r.Brings f r₁ ⟨[], [], []⟩ where
  toOnward := h.toOnward
  widths := by simp [vectorsOf, h.widths]
  decls := by simp
  apart := .nil
  splices := by simp
  trees := by simp

/-- What is read first and what is read then. -/
theorem Brings.append (h : r.Brings f r₁ m) (h' : r₁.Brings f r₂ m') :
    r.Brings f r₂ (m.append m') where
  toOnward := h.toOnward.trans h'.toOnward
  widths := by
    rw [h'.widths, h.widths, List.append_assoc, Matter.append, vectorsOf_append]
  decls := by
    intro d hd
    rcases List.mem_append.mp hd with hd | hd
    · exact (h.decls d hd).mono (Nat.le_refl _) h'.stop
    · exact (h'.decls d hd).mono h.stop (Nat.le_refl _)
  apart := by
    refine List.pairwise_append.mpr ⟨h.apart, h'.apart, ?_⟩
    intro d hd e he
    exact Nat.le_trans (h.decls d hd).stop (h'.decls e he).start
  splices := by
    intro p hp
    rcases List.mem_append.mp hp with hp | hp
    · obtain ⟨plain, start, known⟩ := h.splices p hp
      refine ⟨plain, start, ?_⟩
      rcases known with before | ⟨d, hd, vector⟩
      · exact .inl before
      · exact .inr ⟨d, List.mem_append_left _ hd, vector⟩
    · obtain ⟨plain, start, known⟩ := h'.splices p hp
      refine ⟨plain, Nat.le_trans h.stop start, ?_⟩
      rcases known with before | ⟨d, hd, vector⟩
      · -- a vector known by then was known before or is one of the first matter
        rw [h.widths, has_append, Bool.or_eq_true] at before
        rcases before with before | here
        · exact .inl before
        · obtain ⟨d, hd, type, name⟩ := has_vectorsOf.mp here
          have behind := Nat.le_trans (h.decls d hd).stop start
          exact .inr ⟨d, List.mem_append_left _ hd, type, name, behind⟩
      · exact .inr ⟨d, List.mem_append_right _ hd, vector⟩
  trees := by
    intro t ht
    rcases List.mem_append.mp ht with ht | ht
    · exact h.trees t ht
    · exact h'.trees t ht

theorem Brings.goes (h : r.Brings f r₁ m) (h' : r₁.Goes f r₂) : r.Brings f r₂ m := by
  have both := h.append h'.brings
  simpa only [Matter.append, List.append_nil] using both

theorem Goes.then (h : r.Goes f r₁) (h' : r₁.Brings f r₂ m) : r.Brings f r₂ m :=
  h.brings.append h'

/-- Trees are put below a node that is well placed. -/
theorem Brings.node {ds : List Decl} {ps : List Path} {label : NodeLabel} {span : Span}
    {below : List NodeTree} (h : r.Brings f r₁ ⟨ds, ps, below⟩)
    (placed : (NodeTree.node label span below).WellPlaced f.content) :
    r.Brings f r₁ ⟨ds, ps, [.node label span below]⟩ where
  toOnward := h.toOnward
  widths := h.widths
  decls := h.decls
  apart := h.apart
  splices := h.splices
  trees := by
    intro t ht
    rw [List.mem_singleton.mp ht]
    exact NodeTree.nests_node.mpr ⟨placed, h.trees⟩

/-- Bits are taken of a vector that is known at the start. -/
theorem Brings.select {ds : List Decl} {ps : List Path} {ts : List NodeTree} {p : Path}
    (h : r.Brings f r₁ ⟨ds, ps, ts⟩) (plain : p.tail = []) (ahead : r.last.stop ≤ p.span.start)
    (known : r.widths.has p.text = true) : r.Brings f r₁ ⟨ds, p :: ps, ts⟩ where
  toOnward := h.toOnward
  widths := h.widths
  decls := h.decls
  apart := h.apart
  splices := List.forall_mem_cons.mpr ⟨⟨plain, ahead, .inl known⟩, h.splices⟩
  trees := h.trees

/-- The scopes in which a step starts and ends do not matter. -/
theorem Laid.scope (h : r.Laid f) (scope : Scope) : Laid f { r with scope } :=
  ⟨h.lies, h.apart, h.ahead, h.file, h.order, h.known, h.named⟩

theorem Brings.enter {scope : Scope} (h : Brings f { r with scope } r₁ m) : r.Brings f r₁ m :=
  ⟨⟨h.laid, h.start, h.stop, h.names⟩, h.widths, h.decls, h.apart, h.splices, h.trees⟩

theorem Brings.leave (h : r.Brings f r₁ m) (scope : Scope) :
    r.Brings f { r₁ with scope } m :=
  ⟨⟨h.laid.scope scope, h.start, h.stop, h.names⟩, h.widths, h.decls, h.apart, h.splices, h.trees⟩

/-! ### Single tokens -/

/-- From `r` to `r₁` the token `t` is taken. -/
structure Took (f : SourceFile) (r r₁ : Reading) (t : Token) : Prop extends r.Goes f r₁ where
  token : t = r.current
  lies : t.Lies f
  ahead : r.last.stop ≤ t.span.start
  last : r₁.last = t.span

theorem Took.between {t : Token} (h : r.Took f r₁ t) :
    t.span.Between f r.last.stop r₁.last.stop where
  file := h.lies.between.file
  start := h.ahead
  pos := h.lies.between.pos
  stop := Nat.le_of_eq (by rw [h.last])

/-- From a token on, up to the last one taken since. -/
theorem Took.since {t : Token} (h : r.Took f r₁ t) (h' : r₁.Onward f r₂) :
    (t.span.cover r₂.last) = ⟨f.id, t.span.start, r₂.last.stop⟩ ∧
      (t.span.cover r₂.last).Between f r.last.stop r₂.last.stop := by
  have start : t.span.start ≤ r₂.last.start := h.last ▸ h'.start
  have stop : t.span.stop ≤ r₂.last.stop := h.last ▸ h'.stop
  have file : t.span.file = r₂.last.file := h.between.file.trans h'.laid.file.symm
  have both : t.span.cover r₂.last = ⟨f.id, t.span.start, r₂.last.stop⟩ := by
    rw [Span.cover_eq file start stop, h.between.file]
  refine ⟨both, ?_⟩
  rw [both]
  exact ⟨rfl, h.ahead, Nat.lt_of_lt_of_le h.between.pos stop, Nat.le_refl _⟩

/-- From a token up to a later one. -/
theorem Took.upTo {r₃ : Reading} {t u : Token} (h : r.Took f r₁ t) (h' : r₁.Onward f r₂)
    (close : r₂.Took f r₃ u) :
    (t.span.cover u.span) = ⟨f.id, t.span.start, r₃.last.stop⟩ ∧
      (t.span.cover u.span).Between f r.last.stop r₃.last.stop := by
  rw [← close.last]
  exact h.since (h'.trans close.toOnward)

/-- A vector that is known is a single name. -/
theorem Laid.tail_of_has (laid : r.Laid f) {p : Path} (known : r.widths.has p.text = true) :
    p.tail = [] := by
  obtain ⟨w, hw, same⟩ := List.any_eq_true.mp known
  have name : IsName w.1 := laid.named w.1 (laid.known w hw)
  rw [beq_iff_eq.mp same] at name
  exact Path.tail_of_isName name

end Reading

namespace Parse
open Reading

variable {α β : Type} {f : SourceFile} {r r₁ : Reading} {t : Token}

theorem took_advance (laid : r.Laid f) (more : r.tokens ≠ []) (run : advance r = (.ok t, r₁)) :
    r.Took f r₁ t := by
  obtain ⟨u, rest, ht⟩ := List.exists_cons_of_ne_nil more
  have here : r.current = u.inScope r.scope := current_of_tokens ht
  have lies := laid.lies
  have apart := laid.apart
  have ahead := laid.ahead
  rw [ht] at lies apart ahead
  obtain ⟨first, later⟩ := List.forall_mem_cons.mp lies
  obtain ⟨behind, apart⟩ := List.pairwise_cons.mp apart
  have start : r.last.stop ≤ u.span.start := ahead u List.mem_cons_self
  have pos := first.between.pos
  have order := laid.order
  unfold advance at run
  rw [ht] at run
  cases run
  have laid' : Laid f { r with tokens := rest, last := u.span } :=
    ⟨later, apart, behind, first.between.file, Nat.le_of_lt pos, laid.known, laid.named⟩
  rw [here]
  exact ⟨⟨⟨laid', Nat.le_trans order start, by simp only; omega, List.Subset.refl _⟩, rfl⟩,
    here.symm, first.inScope r.scope, start, rfl⟩

/-- The token of a kind that is expected and found. -/
theorem took_expect {κ : Kind} {wanted : Wanted} (laid : r.Laid f) (more : κ ≠ .eof)
    (valid : κ ≠ .invalid) (run : expect κ wanted r = (.ok t, r₁)) :
    r.Took f r₁ t ∧ t.kind = κ := by
  obtain ⟨kind, taken⟩ := advance_of_expect run
  have took := took_advance laid (tokens_ne_nil kind more valid) taken
  exact ⟨took, by rw [took.token, kind]⟩

/-- A step in another scope starts and ends where it does in its own. -/
theorem ensures_withScope {post : α → Reading → Prop} {p : Parse α} {scope : Scope}
    (h : Ensures (fun a r' => post a { r' with scope := r.scope }) p { r with scope }) :
    Ensures post (withScope scope p) r := by
  intro a r' run
  unfold withScope at run
  cases inner : p { r with scope } with
  | mk result r₁ =>
    rw [inner] at run
    cases run
    exact h a r₁ inner

end Parse
end CircuitCompiler
