import CircuitCompiler.Expr.Parse
import CircuitCompiler.Proofs.Tracking

/-!
# Expressions in other places

Every level of the grammar of expressions tracks itself, over whatever the level calls for the
expressions inside. Each level calls it behind a token it has taken, so one token less is enough
there; `tracks_expression` ties the knot by induction on the depth.
-/

namespace CircuitCompiler.Parse

variable {α α' : Type} {m : Relocation} {n : Nat}

/-- A step that tracks another from every reading, at least one token at a time and with no brace
among them. -/
def Follows (m : Relocation) (n : Nat) (view : α → α') (p : Parse α) (q : Parse α') : Prop :=
  ∀ i r, Tracks m n 1 i i view p q r

theorem Follows.mono {n' : Nat} {view : α → α'} {p : Parse α} {q : Parse α'}
    (h : Follows m n view p q) (hn : n' ≤ n) : Follows m n' view p q :=
  fun i r => (h i r).mono hn (Nat.le_refl 1)

/-! ## Paths -/

theorem follows_segments (fuel fuel' : Nat) (bound : n ≤ fuel') :
    Follows m n m.path (segments fuel) (segments fuel') := by
  induction fuel generalizing n fuel' with
  | zero => exact fun i r => .fail _ _
  | succ fuel ih =>
    intro i r
    refine .ofFuel segments bound fun fuel' bound => ?_
    refine .bind (.expect rfl) fun t r _ => .ifAt (fun dot => ?_) (.succeed rfl)
    refine .bind (.advance (by rw [dot]; rfl)) fun _ r _ => ?_
    refine .bind (ih fuel' (by omega) i r) fun rest r _ => ?_
    exact .succeed rfl

theorem follows_path : Follows m n m.path path path :=
  fun i r => .fueled segments segments fun fuel _ _ bound => follows_segments _ fuel bound i r

/-! ## Operators -/

theorem tracks_leftRounds {next next' : Parse Expr} {op? : Kind → Option Operator}
    (flat : ∀ κ op, op? κ = some op → κ.isBrace = false) (h : Follows m n m.expr next next')
    (fuel fuel' n' : Nat) (less : n' ≤ n) (bound : n' ≤ fuel') (left : Expr) (i : Nat)
    (r : Reading) :
    Tracks m n' 0 i i m.expr (leftRounds next op? fuel left)
      (leftRounds next' op? fuel' (m.expr left)) r := by
  induction fuel generalizing n' fuel' left r with
  | zero => exact .fail _ _
  | succ fuel ih =>
    refine .ofFuel (leftRounds next' op? · (m.expr left)) bound fun fuel' bound => .look ?_
    simp only [Relocation.token_kind]
    split
    · exact .succeed rfl
    · next op found =>
      refine .bind (.advance (flat _ op found)) fun _ r _ => ?_
      refine .bind (h.mono (by omega) i r) fun right r _ => ?_
      have again := ih fuel' (n' - 1 - 1) (by omega) (by omega)
        (.binary (left.span.cover right.span) op left right) r
      simpa only [Relocation.expr, Relocation.expr_span, m.cover] using again

theorem follows_leftAssoc {next next' : Parse Expr} {op? : Kind → Option Operator}
    (flat : ∀ κ op, op? κ = some op → κ.isBrace = false) (h : Follows m n m.expr next next') :
    Follows m n m.expr (leftAssoc next op?) (leftAssoc next' op?) := by
  intro i r
  refine .bind (h i r) fun left r _ => ?_
  refine .fueled (leftRounds next op? · left) (leftRounds next' op? · (m.expr left)) ?_
  exact fun fuel n' less bound => tracks_leftRounds flat h _ fuel n' (by omega) bound left i r

theorem follows_behindUnary {op : UnaryOperator} {operand operand' : Parse Expr} {i : Nat}
    {r : Reading} (flat : r.current.kind.isBrace = false)
    (h : Follows m (n - 1) m.expr operand operand') :
    Tracks m n 1 i i m.expr (behindUnary op operand) (behindUnary op operand') r := by
  refine .bind (.advance flat) fun t r _ => .bind (h i r) fun e r _ => .succeed ?_
  simp [Relocation.expr, m.cover]

/-! ## Levels -/

theorem constForm?_flat {κ : Kind} {form : ConstForm} (h : κ.constForm? = some form) :
    κ.isBrace = false := by
  unfold Kind.constForm? at h
  split at h <;> first | rfl | cases h

theorem relationOp?_flat {κ : Kind} {op : Operator} (h : κ.relationOp? = some op) :
    κ.isBrace = false := by
  unfold Kind.relationOp? at h
  split at h <;> first | rfl | cases h

section Levels

variable {expr expr' : Parse Expr} (h : Follows m (n - 1) m.expr expr expr')

/-- A pair of bounds in its new place. -/
def boundsView (m : Relocation) (b : Expr × Option Expr) : Expr × Option Expr :=
  (m.expr b.1, b.2.map m.expr)

include h

theorem tracks_bounds {i : Nat} {r : Reading} (flat : r.current.kind.isBrace = false) :
    Tracks m n 1 i i (boundsView m) (bounds expr) (bounds expr') r := by
  refine .bind (.advance flat) fun _ r _ => .bind (h i r) fun high r _ => ?_
  refine .ifAt (fun sep => ?_) (.succeed rfl)
  refine .bind (.advance (by rw [sep]; rfl)) fun _ r _ => ?_
  exact .bind (h.mono (by omega) i r) fun low r _ => .succeed rfl

theorem tracks_splice {i : Nat} {r : Reading} (target : Path)
    (opens : r.current.kind = .symbol .lbracket) :
    Tracks m n 1 i i m.expr (splice expr target) (splice expr' (m.path target)) r := by
  unfold splice
  rw [m.path_text]
  refine .isVector (.ite (fun _ => ?_) (.fail _ _))
  have index : Tracks m n 1 i i (boundsView m) (bounds expr) (bounds expr')
      { r with scope := .index } := by
    refine tracks_bounds h ?_
    rw [r.isBrace_current, opens]
    rfl
  refine .bind (.withScope index) fun b r _ => .bind (.expect rfl) fun close r _ => ?_
  obtain ⟨high, low?⟩ := b
  cases low? with
  | none => exact .succeed (by simp [Relocation.expr, m.cover])
  | some low => exact .succeed (by simp [Relocation.expr, m.cover])

theorem follows_reference : Follows m n m.expr (reference expr) (reference expr') := by
  intro i r
  refine .bind (follows_path i r) fun target r _ => .ifAt (fun opens => ?_) (.succeed rfl)
  exact (tracks_splice (h.mono (by omega)) target opens).mono (Nat.le_refl _) (Nat.zero_le _)

theorem tracks_parenthesized {i : Nat} {r : Reading} (flat : r.current.kind.isBrace = false) :
    Tracks m n 1 i i m.expr (parenthesized expr) (parenthesized expr') r := by
  refine .bind (.advance flat) fun opening r _ => .bind (h i r) fun inner r _ => ?_
  refine .bind (.expect rfl) fun close r _ => .succeed ?_
  simp [Relocation.expr, m.cover]

theorem follows_atom : Follows m n m.expr (atom expr) (atom expr') := by
  intro i r
  refine .look ?_
  simp only [Relocation.token_kind]
  split
  · next form found =>
    exact .bind (.advance (constForm?_flat found)) fun _ r _ => .succeed rfl
  · refine .ite (fun opens => .withScope (tracks_parenthesized h ?_))
      (.ite (fun _ => follows_reference h i r) (.unexpected _))
    rw [r.isBrace_current, opens]
    rfl

theorem follows_power : Follows m n m.expr (power expr) (power expr') := by
  refine follows_leftAssoc (fun κ op found => ?_) (follows_atom h)
  unfold Kind.powerOp? at found
  split at found <;> first | rfl | cases found

theorem follows_factor : Follows m n m.expr (factor expr) (factor expr') := by
  intro i r
  have operand := (follows_power h).mono (Nat.sub_le n 1)
  refine .look ?_
  simp only [Relocation.token_kind]
  split
  · next minus => exact follows_behindUnary (by rw [minus]; rfl) operand
  · next not => exact follows_behindUnary (by rw [not]; rfl) operand
  · exact follows_power h i r

theorem follows_product : Follows m n m.expr (product expr) (product expr') := by
  refine follows_leftAssoc (fun κ op found => ?_) (follows_factor h)
  unfold Kind.productOp? at found
  split at found <;> first | rfl | cases found

theorem follows_sum : Follows m n m.expr (sum expr) (sum expr') := by
  refine follows_leftAssoc (fun κ op found => ?_) (follows_product h)
  unfold Kind.sumOp? at found
  split at found <;> first | rfl | cases found

theorem follows_comparison : Follows m n m.expr (comparison expr) (comparison expr') := by
  intro i r
  refine .look ?_
  refine .ite (fun truth => ?_) ?_
  · refine .bind (.advance ?_) fun _ r _ => .succeed rfl
    rcases truth with h | h <;> rw [h] <;> rfl
  · refine .bind (follows_sum h i r) fun left r _ => .look ?_
    simp only [Relocation.token_kind]
    split
    · exact .succeed rfl
    · next op found =>
      refine .bind (.advance (relationOp?_flat found)) fun _ r _ => ?_
      refine .bind ((follows_sum h).mono (by omega) i r) fun right r _ => .succeed ?_
      simp [Relocation.expr, m.cover]

theorem follows_relation : Follows m n m.expr (relation expr) (relation expr') := by
  intro i r
  exact .currentScope (.ite (fun _ => follows_comparison h i r)
    (.withScope (follows_comparison h i _)))

theorem follows_boolFactor : Follows m n m.expr (boolFactor expr) (boolFactor expr') := by
  intro i r
  have operand := (follows_relation h).mono (Nat.sub_le n 1)
  refine .look ?_
  simp only [Relocation.token_kind]
  split
  · next bang => exact follows_behindUnary (by rw [bang]; rfl) operand
  · next not => exact follows_behindUnary (by rw [not]; rfl) operand
  · exact follows_relation h i r

theorem follows_boolExpr : Follows m n m.expr (boolExpr expr) (boolExpr expr') := by
  refine follows_leftAssoc (fun κ op found => ?_) (follows_boolFactor h)
  unfold Kind.boolOp? at found
  split at found <;> first | rfl | cases found

theorem follows_choice : Follows m n m.expr (choice expr) (choice expr') := by
  intro i r
  refine .bind (follows_boolExpr h i r) fun cond r _ => .ifAt (fun question => ?_) (.succeed rfl)
  refine .bind (.advance (by rw [question]; rfl)) fun _ r _ => ?_
  refine .bind (h.mono (by omega) i r) fun yes r _ => .bind (.expect rfl) fun _ r _ => ?_
  refine .bind (h.mono (by omega) i r) fun no r _ => .succeed ?_
  simp [Relocation.expr, m.cover]

end Levels

theorem follows_expressionUpTo (depth depth' : Nat) (bound : n ≤ depth') :
    Follows m n m.expr (expressionUpTo depth) (expressionUpTo depth') := by
  induction depth generalizing n depth' with
  | zero => exact fun i r => .fail _ _
  | succ depth ih =>
    intro i r
    refine .ofFuel expressionUpTo bound fun depth' bound => ?_
    exact follows_choice (ih depth' (by omega)) i r

/-- A whole expression tracks itself. -/
theorem follows_expression : Follows m n m.expr expression expression :=
  fun i r => .fueled expressionUpTo expressionUpTo fun depth _ _ bound =>
    follows_expressionUpTo _ depth bound i r

theorem follows_target : Follows m n m.expr target target :=
  follows_reference follows_expression

end CircuitCompiler.Parse
