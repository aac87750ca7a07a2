import CircuitCompiler.Proofs.Placing

/-!
# Expressions in their places

The grammar of expressions reads trees that nest, between the last token before the expression and
the last token of it, and takes bits of vectors only that are known by then.

* `Parse.Places`: a step that reads an expression in its place;
* `Parse.places_expression`: whole expressions.
-/

namespace CircuitCompiler
open Reading NodeTree

/-- The path is read between `r` and `r'`, and its tree nests. -/
structure Path.Placed (f : SourceFile) (r r' : Reading) (p : Path) : Prop where
  brings : r.Brings f r' ⟨[], [], [p.tree]⟩
  between : p.tree.span.Between f r.last.stop r'.last.stop

/-- The expression is read between `r` and `r'`: its tree nests, and bits are taken of known vectors
only. -/
structure Expr.Placed (f : SourceFile) (r r' : Reading) (e : Expr) : Prop where
  brings : r.Brings f r' ⟨[], e.splices, [e.tree]⟩
  between : e.tree.span.Between f r.last.stop r'.last.stop

namespace Expr.Placed

variable {f : SourceFile} {r r₁ r₂ r₃ : Reading} {e left right : Expr}

theorem after (h : e.Placed f r₁ r₂) (h' : r.Goes f r₁) : e.Placed f r r₂ :=
  ⟨h'.then h.brings, h.between.mono h'.stop (Nat.le_refl _)⟩

theorem enter {scope : Scope} (h : Expr.Placed f { r with scope } r₁ e) : e.Placed f r r₁ :=
  ⟨h.brings.enter, h.between⟩

theorem leave (h : e.Placed f r r₁) (scope : Scope) : e.Placed f r { r₁ with scope } :=
  ⟨h.brings.leave scope, h.between⟩

/-- Two expressions with an operator between them. -/
theorem binary {t : Token} (op : Operator) (hl : left.Placed f r r₁) (took : r₁.Took f r₂ t)
    (hr : right.Placed f r₂ r₃) :
    (Expr.binary (left.span.cover right.span) op left right).Placed f r r₃ := by
  have behind := hr.between.mono took.stop (Nat.le_refl _)
  have span := hl.between.cover behind
  rw [left.span_tree, right.span_tree] at span
  refine ⟨((hl.brings.goes took.toGoes).append hr.brings).node ?_, span⟩
  rw [← left.span_tree, ← right.span_tree]
  exact wellPlaced_pair hl.between behind rfl

/-- An expression behind an operator. -/
theorem unary {t : Token} (op : UnaryOperator) (took : r.Took f r₁ t) (h : e.Placed f r₁ r₂) :
    (Expr.unary (t.span.cover e.span) op e).Placed f r r₂ := by
  have span := took.between.cover h.between
  rw [e.span_tree] at span
  refine ⟨(took.toGoes.then h.brings).node ?_, span⟩
  rw [← e.span_tree]
  have row := h.between.behind took.between.start_le
  exact wellPlaced_cover took.between h.between ⟨row, Nat.le_refl _⟩ rfl

end Expr.Placed

namespace Parse

variable {f : SourceFile} {r : Reading} {next expr : Parse Expr}

/-- Where an expression is read, it is read in its place. -/
def Places (f : SourceFile) (p : Parse Expr) : Prop :=
  ∀ r : Reading, r.Laid f → Ensures (fun e r' => e.Placed f r r') p r

/-- A step that depends on whether a token of a kind is next. -/
theorem ensures_ifAt {α : Type} {post : α → Reading → Prop} {κ : Kind} {yes no : Parse α}
    (there : r.current.kind = κ → Ensures post yes r) (other : Ensures post no r) :
    Ensures post (isAt κ >>= fun b => if b = true then yes else no) r := by
  apply Ensures.bind
  intro b r₁ run
  cases run
  split
  · next same => exact there (beq_iff_eq.mp same)
  · exact other

/-! ## Operators -/

theorem places_leftRounds {op? : Kind → Option Operator} (eof : op? .eof = none)
    (invalid : op? .invalid = none) (operand : Places f next) (fuel : Nat) :
    ∀ {r₀ r : Reading} {left : Expr}, left.Placed f r₀ r →
      Ensures (fun e r' => e.Placed f r₀ r') (leftRounds next op? fuel left) r := by
  induction fuel with
  | zero =>
    intro r₀ r left _ e r' run
    cases run
  | succ fuel ih =>
    intro r₀ r left placed
    apply Ensures.look
    split
    · exact .succeed placed
    · next op found =>
      apply Ensures.bind
      intro t r₁ taken
      have took := took_advance placed.brings.laid (tokens_of_some found eof invalid) taken
      apply Ensures.bind
      intro right r₂ read
      exact ih (placed.binary op took (operand r₁ took.laid right r₂ read))

theorem places_leftAssoc {op? : Kind → Option Operator} (eof : op? .eof = none)
    (invalid : op? .invalid = none) (operand : Places f next) :
    Places f (leftAssoc next op?) := by
  intro r laid
  apply Ensures.bind
  intro left r₁ read
  apply Ensures.bind
  intro n r₂ run
  cases run
  exact places_leftRounds eof invalid operand _ (operand r laid left r₁ read)

theorem places_behindUnary (op : UnaryOperator) (operand : Places f next) (laid : r.Laid f)
    (more : r.tokens ≠ []) :
    Ensures (fun e r' => e.Placed f r r') (behindUnary op next) r := by
  apply Ensures.bind
  intro t r₁ taken
  have took := took_advance laid more taken
  apply Ensures.bind
  intro e r₂ read
  exact .succeed (.unary op took (operand r₁ took.laid e r₂ read))

/-! ## Names and constants -/

/-- The leaf of an identifier. -/
theorem nests_name {t : Token} (lies : t.Lies f) (kind : t.kind = .ident) :
    (NodeTree.node (.name t.name) t.span []).Nests f.content := by
  refine nests_leaf lies.between.pos ?_
  rintro text ⟨⟩
  exact (lies.name kind).1

/-- The leaf of a constant. -/
theorem nests_constant {t : Token} {form : ConstForm} (lies : t.Lies f)
    (found : t.kind.constForm? = some form) :
    (NodeTree.node (.constant ⟨form, t.name⟩) t.span []).Nests f.content := by
  refine nests_leaf lies.between.pos ?_
  rintro text ⟨⟩
  exact lies.constant found

/-- A leaf that is read as one token. -/
theorem Took.leaf {r₁ : Reading} {t : Token} {label : NodeLabel} (took : r.Took f r₁ t)
    (nests : (NodeTree.node label t.span []).Nests f.content) :
    r.Brings f r₁ ⟨[], [], [.node label t.span []]⟩ where
  toOnward := took.toOnward
  widths := took.toGoes.brings.widths
  decls := by simp
  apart := .nil
  splices := by simp
  trees := by
    intro t ht
    rw [List.mem_singleton.mp ht]
    exact nests

theorem placed_const {r₁ : Reading} {t : Token} {form : ConstForm} (took : r.Took f r₁ t)
    (found : t.kind.constForm? = some form) :
    (Expr.const t.span ⟨form, t.name⟩).Placed f r r₁ :=
  ⟨Took.leaf took (nests_constant took.lies found), took.between⟩

theorem places_segments (fuel : Nat) : ∀ {r : Reading}, r.Laid f →
    Ensures (fun p r' => p.Placed f r r') (segments fuel) r := by
  induction fuel with
  | zero =>
    intro r _ p r' run
    cases run
  | succ fuel ih =>
    intro r laid
    apply Ensures.bind
    intro t r₁ read
    obtain ⟨took, kind⟩ := took_expect laid (by simp) (by simp) read
    have leaf := Took.leaf took (nests_name took.lies kind)
    apply ensures_ifAt
    · intro dot
      apply Ensures.bind
      intro u r₂ taken
      have joint := took_advance took.laid (tokens_ne_nil dot (by simp) (by simp)) taken
      apply Ensures.bind
      intro rest r₃ more
      have later := ih joint.laid rest r₃ more
      apply Ensures.succeed
      -- the member joint reaches from the name to the end of the path
      have behind := later.between.mono joint.stop (Nat.le_refl _)
      have span := took.between.cover behind
      rw [rest.span_tree] at span
      refine ⟨((leaf.goes joint.toGoes).append later.brings).node ?_, span⟩
      show (NodeTree.node _ (t.span.cover rest.span) _).WellPlaced f.content
      rw [← rest.span_tree]
      exact wellPlaced_pair (t := .node (.name t.name) t.span []) took.between behind rfl
    · exact .succeed ⟨leaf, took.between⟩

theorem places_path (laid : r.Laid f) : Ensures (fun p r' => p.Placed f r r') path r := by
  apply Ensures.bind
  intro n r₁ run
  cases run
  exact places_segments _ laid

/-! ## Bit selections and parentheses -/

/-- The bounds of a bit selection are read between `r` and `r'`. -/
def BoundsPlaced (f : SourceFile) (r r' : Reading) : Expr × Option Expr → Prop
  | (high, none) => high.Placed f r r'
  | (high, some low) => ∃ r₁, high.Placed f r r₁ ∧ low.Placed f r₁ r'

theorem places_bounds (h : Places f expr) (laid : r.Laid f) (more : r.tokens ≠ []) :
    Ensures (fun b r' => BoundsPlaced f r r' b) (bounds expr) r := by
  apply Ensures.bind
  intro t r₁ taken
  have took := took_advance laid more taken
  apply Ensures.bind
  intro high r₂ read
  have first := (h r₁ took.laid high r₂ read).after took.toGoes
  apply ensures_ifAt
  · intro colon
    apply Ensures.bind
    intro u r₃ taken
    have sep := took_advance first.brings.laid (tokens_ne_nil colon (by simp) (by simp)) taken
    apply Ensures.bind
    intro low r₄ read
    have second := (h r₃ sep.laid low r₄ read).after sep.toGoes
    exact .succeed ⟨r₂, first, second⟩
  · exact .succeed first

/-- The target of a bit selection is read in its place, and it is a known vector. -/
structure TargetPlaced (f : SourceFile) (r r' : Reading) (p : Path) : Prop where
  brings : r.Brings f r' ⟨[], [p], [p.tree]⟩
  between : p.tree.span.Between f r.last.stop r'.last.stop

theorem targetPlaced {r₁ : Reading} {p : Path} (laid : r.Laid f) (path : p.Placed f r r₁)
    (known : r₁.widths.has p.text = true) : TargetPlaced f r r₁ p := by
  have before : r.widths.has p.text = true := by
    have same := path.brings.widths
    rw [vectorsOf, List.filter_nil, List.map_nil, List.append_nil] at same
    rwa [same] at known
  have start := path.between.start
  rw [p.span_tree] at start
  exact ⟨path.brings.select (laid.tail_of_has before) start before, path.between⟩

theorem placed_index {r₁ r₂ r₃ : Reading} {target : Path} {bit : Expr} {t : Token}
    (ht : TargetPlaced f r r₁ target) (hb : bit.Placed f r₁ r₂) (close : r₂.Took f r₃ t) :
    (Expr.index (target.span.cover t.span) target bit).Placed f r r₃ := by
  have last := close.between.mono hb.brings.stop (Nat.le_refl _)
  have span := ht.between.cover last
  rw [target.span_tree] at span
  refine ⟨((ht.brings.append hb.brings).goes close.toGoes).node ?_, span⟩
  rw [← target.span_tree]
  refine wellPlaced_cover ht.between last ?_ rfl
  exact ⟨ht.between.tight, hb.between.behind ht.between.stop, hb.between.stop_le close.between⟩

theorem placed_range {r₁ r₂ r₃ r₄ : Reading} {target : Path} {high low : Expr} {t : Token}
    (ht : TargetPlaced f r r₁ target) (hh : high.Placed f r₁ r₂) (hl : low.Placed f r₂ r₃)
    (close : r₃.Took f r₄ t) :
    (Expr.range (target.span.cover t.span) target high low).Placed f r r₄ := by
  have last := close.between.mono (Nat.le_trans hh.brings.stop hl.brings.stop) (Nat.le_refl _)
  have span := ht.between.cover last
  rw [target.span_tree] at span
  refine ⟨(((ht.brings.append hh.brings).append hl.brings).goes close.toGoes).node ?_, span⟩
  rw [← target.span_tree]
  refine wellPlaced_cover ht.between last ?_ rfl
  exact ⟨ht.between.tight, hh.between.behind ht.between.stop,
    hl.between.behind hh.between.stop, hl.between.stop_le close.between⟩

theorem places_splice {r₀ : Reading} {target : Path} (h : Places f expr) (laid : r₀.Laid f)
    (path : target.Placed f r₀ r) (more : r.tokens ≠ []) :
    Ensures (fun e r' => e.Placed f r₀ r') (splice expr target) r := by
  apply Ensures.bind
  intro vector r₁ run
  cases run
  split
  · next known =>
    have selected := targetPlaced laid path known
    apply Ensures.bind
    rintro ⟨high, low?⟩ r₂ read
    have inside : Laid f { r with scope := .index } := path.brings.laid.scope .index
    have bounds : Ensures (fun b r' => BoundsPlaced f r r' b)
        (withScope .index (bounds expr)) r := by
      apply ensures_withScope
      intro b r' run
      have inner := places_bounds h inside more b r' run
      obtain ⟨high, low?⟩ := b
      cases low? with
      | none => exact inner.enter.leave r.scope
      | some low =>
        obtain ⟨r₁, first, second⟩ := inner
        exact ⟨r₁, first.enter, second.leave r.scope⟩
    have inner := bounds _ r₂ read
    cases low? with
    | none =>
      apply Ensures.bind
      intro t r₃ read
      obtain ⟨close, -⟩ := took_expect inner.brings.laid (by simp) (by simp) read
      exact .succeed (placed_index selected inner close)
    | some low =>
      obtain ⟨r₁, first, second⟩ := inner
      apply Ensures.bind
      intro t r₃ read
      obtain ⟨close, -⟩ := took_expect second.brings.laid (by simp) (by simp) read
      exact .succeed (placed_range selected first second close)
  · exact .fail _ _

theorem places_reference (h : Places f expr) : Places f (reference expr) := by
  intro r laid
  apply Ensures.bind
  intro target r₁ read
  have path := places_path laid target r₁ read
  apply ensures_ifAt
  · intro opened
    exact places_splice h laid path (tokens_ne_nil opened (by simp) (by simp))
  · exact .succeed ⟨path.brings, path.between⟩

theorem places_parenthesized (h : Places f expr) (laid : r.Laid f) (more : r.tokens ≠ []) :
    Ensures (fun e r' => e.Placed f r r') (parenthesized expr) r := by
  apply Ensures.bind
  intro opening r₁ taken
  have took := took_advance laid more taken
  apply Ensures.bind
  intro inner r₂ read
  have placed := h r₁ took.laid inner r₂ read
  apply Ensures.bind
  intro close r₃ read
  obtain ⟨closes, -⟩ := took_expect placed.brings.laid (by simp) (by simp) read
  apply Ensures.succeed
  have last := closes.between.mono placed.brings.stop (Nat.le_refl _)
  have span := took.between.cover last
  refine ⟨((took.toGoes.then placed.brings).goes closes.toGoes).node ?_, span⟩
  refine wellPlaced_cover took.between last ?_ rfl
  exact ⟨placed.between.behind took.between.start_le, placed.between.stop_le closes.between⟩

/-! ## Levels -/

theorem places_withScope {p : Parse Expr} {scope : Scope} (h : Places f p) :
    Places f (withScope scope p) := by
  intro r laid
  apply ensures_withScope
  intro e r' run
  exact (h { r with scope } (laid.scope scope) e r' run).enter.leave r.scope

theorem places_atom (h : Places f expr) : Places f (atom expr) := by
  intro r laid
  apply Ensures.look
  split
  · next form found =>
    apply Ensures.bind
    intro t r₁ taken
    have took := took_advance laid (tokens_of_some found rfl rfl) taken
    rw [← took.token] at found ⊢
    exact .succeed (placed_const took found)
  · split
    · next opened =>
      apply ensures_withScope
      intro e r' run
      have more : r.tokens ≠ [] := tokens_ne_nil opened (by simp) (by simp)
      exact (places_parenthesized h (laid.scope .general) more e r' run).enter.leave r.scope
    · split
      · exact places_reference h r laid
      · exact .unexpected _

theorem places_power (h : Places f expr) : Places f (power expr) :=
  places_leftAssoc rfl rfl (places_atom h)

theorem places_factor (h : Places f expr) : Places f (factor expr) := by
  intro r laid
  apply Ensures.look
  split
  · next minus =>
    exact places_behindUnary .neg (places_power h) laid (tokens_ne_nil minus (by simp) (by simp))
  · next word =>
    exact places_behindUnary .not (places_power h) laid (tokens_ne_nil word (by simp) (by simp))
  · exact places_power h r laid

theorem places_product (h : Places f expr) : Places f (product expr) :=
  places_leftAssoc rfl rfl (places_factor h)

theorem places_sum (h : Places f expr) : Places f (sum expr) :=
  places_leftAssoc rfl rfl (places_product h)

theorem places_comparison (h : Places f expr) : Places f (comparison expr) := by
  intro r laid
  apply Ensures.look
  split
  · next truth =>
    have found : r.current.kind.constForm? = some .bool := Kind.constForm?_of_truth truth
    apply Ensures.bind
    intro t r₁ taken
    have took := took_advance laid (tokens_of_some found rfl rfl) taken
    rw [← took.token] at found ⊢
    exact .succeed (placed_const took found)
  · apply Ensures.bind
    intro left r₁ read
    have first := places_sum h r laid left r₁ read
    apply Ensures.look
    split
    · exact .succeed first
    · next op found =>
      apply Ensures.bind
      intro t r₂ taken
      have took := took_advance first.brings.laid (tokens_of_some found rfl rfl) taken
      apply Ensures.bind
      intro right r₃ read
      exact .succeed (first.binary op took (places_sum h r₂ took.laid right r₃ read))

theorem places_relation (h : Places f expr) : Places f (relation expr) := by
  intro r laid
  apply Ensures.bind
  intro scope r₁ run
  cases run
  split
  · exact places_comparison h r laid
  · exact places_withScope (places_comparison h) r laid

theorem places_boolFactor (h : Places f expr) : Places f (boolFactor expr) := by
  intro r laid
  apply Ensures.look
  split
  · next bang =>
    exact places_behindUnary .bang (places_relation h) laid
      (tokens_ne_nil bang (by simp) (by simp))
  · next word =>
    exact places_behindUnary .not (places_relation h) laid (tokens_ne_nil word (by simp) (by simp))
  · exact places_relation h r laid

theorem places_boolExpr (h : Places f expr) : Places f (boolExpr expr) :=
  places_leftAssoc rfl rfl (places_boolFactor h)

theorem places_choice (h : Places f expr) : Places f (choice expr) := by
  intro r laid
  apply Ensures.bind
  intro cond r₁ read
  have first := places_boolExpr h r laid cond r₁ read
  apply ensures_ifAt
  · intro asked
    apply Ensures.bind
    intro t r₂ taken
    have mark := took_advance first.brings.laid (tokens_ne_nil asked (by simp) (by simp)) taken
    apply Ensures.bind
    intro yes r₃ read
    have second := (h r₂ mark.laid yes r₃ read).after mark.toGoes
    apply Ensures.bind
    intro u r₄ read
    obtain ⟨colon, -⟩ := took_expect second.brings.laid (by simp) (by simp) read
    apply Ensures.bind
    intro no r₅ read
    have third := (h r₄ colon.laid no r₅ read).after colon.toGoes
    apply Ensures.succeed
    have last := third.between.mono second.brings.stop (Nat.le_refl _)
    have span := first.between.cover last
    rw [cond.span_tree, no.span_tree] at span
    refine ⟨((first.brings.append second.brings).append third.brings).node ?_, span⟩
    rw [← cond.span_tree, ← no.span_tree]
    refine wellPlaced_cover first.between last ?_ rfl
    exact ⟨first.between.tight, second.between.behind first.between.stop,
      third.between.behind second.between.stop, Nat.le_refl _⟩
  · exact .succeed first

theorem places_expressionUpTo (depth : Nat) : Places f (expressionUpTo depth) := by
  induction depth with
  | zero =>
    intro r laid e r' run
    cases run
  | succ depth ih => exact places_choice ih

theorem places_expression : Places f expression := by
  intro r laid
  apply Ensures.bind
  intro n r₁ run
  cases run
  exact places_expressionUpTo _ r laid

theorem places_target : Places f target := places_reference places_expression

end Parse
end CircuitCompiler
