import CircuitCompiler.Proofs.Reporting

/-!
# Expressions of parsers that report

The grammar of expressions for a parser at work, and that each of its levels agrees with the level of
the grammar that reads from a list of tokens. As there, the parser of whole expressions is called
only behind a token that was taken.

* `Parser.Manages`: a pair of parsers of expressions that agree where few tokens are left;
* `Parser.agrees_expression` and `Parser.agrees_target`.
-/

namespace CircuitCompiler

namespace Attempt

/-- The rounds of `leftAssoc` behind a left operand. -/
def leftRounds (next : Attempt Expr) (op? : Kind → Option Operator) : Nat → Expr → Attempt Expr
  | 0, _ => giveUp
  | rounds + 1, left => do
    match op? (← peek).kind with
    | none => succeed left
    | some op =>
      let _ ← advance
      let right ← next
      leftRounds next op? rounds (.binary (left.span.cover right.span) op left right)

/-- Operands joined by the operators of one level, grouped to the left. -/
def leftAssoc (next : Attempt Expr) (op? : Kind → Option Operator) : Attempt Expr := do
  let left ← next
  bounded fun rounds => leftRounds next op? rounds left

/-- The segments of a path. -/
def segments : Nat → Attempt Path
  | 0 => giveUp
  | rounds + 1 => do
    let t ← expect .ident .identifier
    let head : Segment := ⟨t.name, t.span⟩
    if ← isAt (.symbol .dot) then
      let _ ← advance
      let rest ← segments rounds
      succeed ⟨head, rest.segments⟩
    else succeed ⟨head, []⟩

/-- A segment, and behind a dot the segments that `more` reads. -/
def segmentsThen (more : Attempt Path) : Attempt Path := do
  let t ← expect .ident .identifier
  let head : Segment := ⟨t.name, t.span⟩
  if ← isAt (.symbol .dot) then
    let _ ← advance
    let rest ← more
    succeed ⟨head, rest.segments⟩
  else succeed ⟨head, []⟩

/-- A name or a dotted path. -/
def path : Attempt Path := bounded segments

/-- The bounds between the brackets of a bit selection. -/
def bounds (expr : Attempt Expr) : Attempt (Expr × Option Expr) := do
  let _ ← advance
  let high ← expr
  if ← isAt (.symbol .rangeSep) then
    let _ ← advance
    let low ← expr
    succeed (high, some low)
  else succeed (high, none)

/-- A bit selection behind its target, which must be a declared vector. -/
def splice (expr : Attempt Expr) (target : Path) : Attempt Expr := do
  if ← isVector target.text then
    let (high, low?) ← withScope .index (bounds expr)
    let close ← expect (.symbol .rbracket) .closeSplice
    let span := target.span.cover close.span
    match low? with
    | none => succeed (.index span target high)
    | some low => succeed (.range span target high low)
  else fail (.notAVector target.text) target.span

/-- A path with an optional bit selection. -/
def reference (expr : Attempt Expr) : Attempt Expr := do
  let target ← path
  if ← isAt (.symbol .lbracket) then splice expr target
  else succeed (.ref target)

/-- An expression in parentheses. -/
def parenthesized (expr : Attempt Expr) : Attempt Expr := do
  let opening ← advance
  let inner ← expr
  let close ← expect (.symbol .rparen) .closeParen
  succeed (.unary (opening.span.cover close.span) .paren inner)

/-- A constant, an expression in parentheses or a reference. -/
def atom (expr : Attempt Expr) : Attempt Expr := do
  let t ← peek
  match t.kind.constForm? with
  | some form =>
    let _ ← advance
    succeed (.const t.span ⟨form, t.name⟩)
  | none =>
    if t.kind = .symbol .lparen then withScope .general (parenthesized expr)
    else if t.kind = .ident then reference expr
    else unexpected .expression

/-- Powers of atoms. -/
def power (expr : Attempt Expr) : Attempt Expr := leftAssoc (atom expr) Kind.powerOp?

/-- An operand behind an operator that is next. -/
def behindUnary (op : UnaryOperator) (operand : Attempt Expr) : Attempt Expr := do
  let t ← advance
  let e ← operand
  succeed (.unary (t.span.cover e.span) op e)

/-- A power with an optional sign or negation. -/
def factor (expr : Attempt Expr) : Attempt Expr := do
  match (← peek).kind with
  | .symbol .minus => behindUnary .neg (power expr)
  | .keyword .not => behindUnary .not (power expr)
  | _ => power expr

/-- Products of factors. -/
def product (expr : Attempt Expr) : Attempt Expr := leftAssoc (factor expr) Kind.productOp?

/-- Sums of products. -/
def sum (expr : Attempt Expr) : Attempt Expr := leftAssoc (product expr) Kind.sumOp?

/-- A truth value, or a sum that may be compared with another. -/
def comparison (expr : Attempt Expr) : Attempt Expr := do
  let t ← peek
  if t.kind = .keyword .trueWord ∨ t.kind = .keyword .falseWord then
    let _ ← advance
    succeed (.const t.span ⟨.bool, t.name⟩)
  else
    let left ← sum expr
    match Kind.relationOp? (← peek).kind with
    | none => succeed left
    | some op =>
      let _ ← advance
      let right ← sum expr
      succeed (.binary (left.span.cover right.span) op left right)

/-- A comparison, for which `<=` compares; inside an index the scope stays. -/
def relation (expr : Attempt Expr) : Attempt Expr := do
  if (← currentScope) = .index then comparison expr
  else withScope .relational (comparison expr)

/-- A relation with an optional negation in front. -/
def boolFactor (expr : Attempt Expr) : Attempt Expr := do
  match (← peek).kind with
  | .symbol .bang => behindUnary .bang (relation expr)
  | .keyword .not => behindUnary .not (relation expr)
  | _ => relation expr

/-- Relations joined by boolean operators. -/
def boolExpr (expr : Attempt Expr) : Attempt Expr := leftAssoc (boolFactor expr) Kind.boolOp?

/-- A boolean expression that may choose between two expressions. -/
def choice (expr : Attempt Expr) : Attempt Expr := do
  let cond ← boolExpr expr
  if ← isAt (.symbol .question) then
    let _ ← advance
    let yes ← expr
    let _ ← expect (.symbol .colon) .choiceColon
    let no ← expr
    succeed (.choice (cond.span.cover no.span) cond yes no)
  else succeed cond

/-- Expressions that nest at most to a depth. -/
def expressionUpTo : Nat → Attempt Expr
  | 0 => giveUp
  | depth + 1 => choice (expressionUpTo depth)

/-- A whole expression. -/
def expression : Attempt Expr := bounded expressionUpTo

/-- A path with an optional bit selection, as the target of an assignment. -/
def target : Attempt Expr := reference expression

end Attempt

namespace Parser

variable {range : Span} {d m n : Nat} {p : Parser} {r : Reading}

theorem Agrees.ite {α : Type} {c : Prop} [Decidable c] {post : α → Parser → Reading → Prop}
    {yes no : Attempt α} {yes' no' : Parse α} (hy : c → Agrees range post yes yes' p r)
    (hn : ¬c → Agrees range post no no' p r) :
    Agrees range post (if c then yes else no) (if c then yes' else no') p r := by
  by_cases h : c
  · rw [if_pos h, if_pos h]
    exact hy h
  · rw [if_neg h, if_neg h]
    exact hn h

/-! ## Paths -/

/-- The path lies in the range, and fewer than `n` tokens are left. -/
abbrev Named (range : Span) (n : Nat) : Path → Parser → Reading → Prop :=
  Leaves range (fun path => path.span.Inside range) n

theorem agrees_segmentsThen {more : Attempt Path} {rounds' : Nat}
    (behind : ∀ {m : Nat} {p : Parser} {r : Reading}, m < n → p.Follows range (m + 1) r →
      Agrees range (Named range m) more (Parse.segments rounds') p r)
    (follows : p.Follows range (n + 1) r) :
    Agrees range (Named range n) (Attempt.segmentsThen more) (Parse.segments (rounds' + 1)) p r := by
  refine .bind (.expect follows (by simp) (by simp)) ?_
  rintro t p r ⟨inside, -, follows⟩
  refine .ifAt follows (fun p dot looked => ?_) fun p looked => .succeed ⟨inside, looked.follows⟩
  obtain ⟨m, rfl⟩ := follows.pos
  refine .bind (.advance looked.follows (Reading.tokens_ne_nil dot (by simp) (by simp))) ?_
  rintro _ p r ⟨-, -, follows⟩
  obtain ⟨k, rfl⟩ := follows.pos
  refine .bind (behind (by omega) follows) ?_
  rintro rest p r ⟨later, follows⟩
  exact .succeed ⟨inside.cover later, follows.mono (by omega)⟩

theorem agrees_segments (rounds : Nat) : ∀ {rounds' n : Nat} {p : Parser} {r : Reading},
    n < rounds → n < rounds' → p.Follows range (n + 1) r →
      Agrees range (Named range n) (Attempt.segments rounds) (Parse.segments rounds') p r := by
  induction rounds with
  | zero =>
    intro rounds' n p r enough
    omega
  | succ rounds ih =>
    intro rounds' n p r enough enough' follows
    obtain ⟨less, rfl⟩ : ∃ less, rounds' = less + 1 := ⟨rounds' - 1, by omega⟩
    exact agrees_segmentsThen (fun later follows => ih (by omega) (by omega) follows) follows

theorem agrees_path (follows : p.Follows range (n + 1) r) :
    Agrees range (Named range n) Attempt.path Parse.path p r := by
  refine .bounded Parse.segments follows fun rounds enough => ?_
  have few := follows.few
  exact (agrees_segments rounds enough (Nat.lt_succ_self _) follows.tight).leaves (by omega)

/-! ## Levels -/

/-- The result lies in the range, and fewer than `n` tokens are left. -/
abbrev Wrote (range : Span) (n : Nat) : Expr → Parser → Reading → Prop :=
  Leaves range (fun e => e.span.Inside range) n

/-- The two parsers of expressions agree where fewer than `d` tokens are left, and take one at least.
-/
def Manages (range : Span) (d : Nat) (x : Attempt Expr) (y : Parse Expr) : Prop :=
  ∀ ⦃n : Nat⦄ ⦃p : Parser⦄ ⦃r : Reading⦄, n < d → p.Follows range (n + 1) r →
    Agrees range (Wrote range n) x y p r

theorem Manages.call {x : Attempt Expr} {y : Parse Expr} (h : Manages range d x y) (le : n ≤ d)
    (follows : p.Follows range n r) : Agrees range (Wrote range n) x y p r := by
  obtain ⟨m, rfl⟩ := follows.pos
  exact (h le follows).leaves (Nat.le_succ m)

section Levels

variable {next : Attempt Expr} {next' : Parse Expr} {op? : Kind → Option Operator}

theorem agrees_leftRounds (eof : op? .eof = none) (invalid : op? .invalid = none)
    (operand : Manages range d next next') (rounds : Nat) :
    ∀ {rounds' n : Nat} {left : Expr} {p : Parser} {r : Reading}, n ≤ rounds → n ≤ rounds' →
      n ≤ d → left.span.Inside range → p.Follows range n r →
        Agrees range (Wrote range n) (Attempt.leftRounds next op? rounds left)
          (Parse.leftRounds next' op? rounds' left) p r := by
  induction rounds with
  | zero =>
    intro rounds' n left p r enough _ _ _ follows
    have := follows.few
    omega
  | succ rounds ih =>
    intro rounds' n left p r enough enough' le inside follows
    obtain ⟨m, rfl⟩ := follows.pos
    obtain ⟨less, rfl⟩ : ∃ less, rounds' = less + 1 := ⟨rounds' - 1, by omega⟩
    refine .look follows fun t p kind _ looked => ?_
    rw [kind]
    cases found : op? r.current.kind with
    | none => exact .succeed ⟨inside, looked.follows⟩
    | some op =>
      refine .bind (.advance looked.follows (Reading.tokens_of_some found eof invalid)) ?_
      rintro _ p r ⟨-, -, follows⟩
      refine .bind (operand.call (by omega) follows) ?_
      rintro right p r ⟨behind, follows⟩
      have joined : (Expr.binary (left.span.cover right.span) op left right).span.Inside range :=
        inside.cover behind
      exact (ih (by omega) (by omega) (by omega) joined follows).leaves (Nat.le_succ m)

theorem Manages.leftAssoc (operand : Manages range d next next') (eof : op? .eof = none)
    (invalid : op? .invalid = none) :
    Manages range d (Attempt.leftAssoc next op?) (Parse.leftAssoc next' op?) := by
  intro n p r le follows
  refine .bind (operand le follows) ?_
  rintro left p r ⟨inside, follows⟩
  refine .bounded (Parse.leftRounds next' op? · left) follows fun rounds enough => ?_
  have few := follows.few
  exact (agrees_leftRounds eof invalid operand rounds enough (Nat.le_refl _) (by omega) inside
    follows.tight).leaves few

theorem agrees_behindUnary {op : UnaryOperator} (operand : Manages range d next next') (le : n < d)
    (follows : p.Follows range (n + 1) r) (more : r.tokens ≠ []) :
    Agrees range (Wrote range n) (Attempt.behindUnary op next) (Parse.behindUnary op next') p r := by
  refine .bind (.advance follows more) ?_
  rintro t p r ⟨inside, -, follows⟩
  refine .bind (operand.call (by omega) follows) ?_
  rintro e p r ⟨behind, follows⟩
  exact .succeed ⟨inside.cover behind, follows⟩

end Levels

section Grammar

variable {expr : Attempt Expr} {expr' : Parse Expr}

variable (inner : Manages range d expr expr')

include inner

theorem agrees_bounds (le : n ≤ d) (follows : p.Follows range (n + 1) r) (more : r.tokens ≠ []) :
    Agrees range (Leaves range (fun _ => True) n) (Attempt.bounds expr) (Parse.bounds expr') p
      r := by
  refine .bind (.advance follows more) ?_
  rintro _ p r ⟨-, -, follows⟩
  refine .bind (inner.call le follows) ?_
  rintro high p r ⟨-, follows⟩
  refine .ifAt follows (fun p colon looked => ?_) fun p looked => .succeed ⟨trivial, looked.follows⟩
  obtain ⟨m, rfl⟩ := follows.pos
  refine .bind (.advance looked.follows (Reading.tokens_ne_nil colon (by simp) (by simp))) ?_
  rintro _ p r ⟨-, -, follows⟩
  refine .bind (inner.call (by omega) follows) ?_
  rintro low p r ⟨-, follows⟩
  exact .succeed ⟨trivial, follows.mono (Nat.le_succ m)⟩

theorem agrees_splice {target : Path} (inside : target.span.Inside range) (le : n ≤ d)
    (follows : p.Follows range (n + 1) r) (more : r.tokens ≠ []) :
    Agrees range (Wrote range n) (Attempt.splice expr target) (Parse.splice expr' target) p r := by
  refine .isVector follows (.ite (fun _ => ?_) fun _ => ?_)
  · refine .bind (.withScope follows fun p follows => agrees_bounds inner le follows more) ?_
    rintro ⟨high, low?⟩ p r ⟨-, follows⟩
    obtain ⟨m, rfl⟩ := follows.pos
    refine .bind (.expect follows (by simp) (by simp)) ?_
    rintro close p r ⟨closing, -, follows⟩
    cases low? with
    | none => exact .succeed ⟨inside.cover closing, follows.mono (Nat.le_succ m)⟩
    | some low => exact .succeed ⟨inside.cover closing, follows.mono (Nat.le_succ m)⟩
  · exact .fail follows (follows.clean more) (by simp) inside

theorem agrees_reference :
    Manages range (d + 1) (Attempt.reference expr) (Parse.reference expr') := by
  intro n p r le follows
  refine .bind (agrees_path follows) ?_
  rintro target p r ⟨inside, follows⟩
  refine .ifAt follows (fun p opens looked => ?_) fun p looked => .succeed ⟨inside, looked.follows⟩
  obtain ⟨m, rfl⟩ := follows.pos
  exact (agrees_splice inner inside (by omega) looked.follows
    (Reading.tokens_ne_nil opens (by simp) (by simp))).leaves (Nat.le_succ m)

theorem agrees_parenthesized (le : n ≤ d) (follows : p.Follows range (n + 1) r)
    (more : r.tokens ≠ []) :
    Agrees range (Wrote range n) (Attempt.parenthesized expr) (Parse.parenthesized expr') p r := by
  refine .bind (.advance follows more) ?_
  rintro opening p r ⟨inside, -, follows⟩
  refine .bind (inner.call le follows) ?_
  rintro e p r ⟨-, follows⟩
  obtain ⟨m, rfl⟩ := follows.pos
  refine .bind (.expect follows (by simp) (by simp)) ?_
  rintro close p r ⟨closing, -, follows⟩
  exact .succeed ⟨inside.cover closing, follows.mono (Nat.le_succ m)⟩

theorem agrees_atom : Manages range (d + 1) (Attempt.atom expr) (Parse.atom expr') := by
  intro n p r le follows
  refine .look follows fun t p kind same looked => ?_
  rw [kind]
  cases form : r.current.kind.constForm? with
  | some f =>
    have more : r.tokens ≠ [] := Reading.tokens_of_some form rfl rfl
    rw [same (Reading.fault?_of_tokens more)]
    refine .bind (.advance looked.follows more) ?_
    rintro _ p r ⟨-, -, follows⟩
    exact .succeed ⟨looked.follows.currentInside, follows⟩
  | none =>
    refine .ite (fun opens => ?_) fun _ => .ite (fun _ => ?_) fun _ => .unexpected looked.follows
    · have more := Reading.tokens_ne_nil opens (by simp) (by simp)
      exact .withScope looked.follows fun p follows =>
        agrees_parenthesized inner (Nat.le_of_lt_succ le) follows more
    · exact agrees_reference inner le looked.follows

theorem agrees_power : Manages range (d + 1) (Attempt.power expr) (Parse.power expr') :=
  (agrees_atom inner).leftAssoc rfl rfl

theorem agrees_factor : Manages range (d + 1) (Attempt.factor expr) (Parse.factor expr') := by
  intro n p r le follows
  refine .look follows fun t p kind _ looked => ?_
  rw [kind]
  cases found : r.current.kind with
  | symbol s =>
    have more := Reading.tokens_ne_nil found (by simp) (by simp)
    cases s with
    | minus => exact agrees_behindUnary (agrees_power inner) le looked.follows more
    | _ => exact agrees_power inner le looked.follows
  | keyword w =>
    have more := Reading.tokens_ne_nil found (by simp) (by simp)
    cases w with
    | not => exact agrees_behindUnary (agrees_power inner) le looked.follows more
    | _ => exact agrees_power inner le looked.follows
  | _ => exact agrees_power inner le looked.follows

theorem agrees_product : Manages range (d + 1) (Attempt.product expr) (Parse.product expr') :=
  (agrees_factor inner).leftAssoc rfl rfl

theorem agrees_sum : Manages range (d + 1) (Attempt.sum expr) (Parse.sum expr') :=
  (agrees_product inner).leftAssoc rfl rfl

theorem agrees_comparison :
    Manages range (d + 1) (Attempt.comparison expr) (Parse.comparison expr') := by
  intro n p r le follows
  refine .look follows fun t p kind same looked => ?_
  rw [kind]
  refine .ite (fun truth => ?_) fun _ => ?_
  · have more : r.tokens ≠ [] := by
      rcases truth with yes | no
      · exact Reading.tokens_ne_nil yes (by simp) (by simp)
      · exact Reading.tokens_ne_nil no (by simp) (by simp)
    rw [same (Reading.fault?_of_tokens more)]
    refine .bind (.advance looked.follows more) ?_
    rintro _ p r ⟨-, -, follows⟩
    exact .succeed ⟨looked.follows.currentInside, follows⟩
  · refine .bind (agrees_sum inner le looked.follows) ?_
    rintro left p r ⟨inside, follows⟩
    refine .look follows fun t p kind _ looked => ?_
    rw [kind]
    cases found : r.current.kind.relationOp? with
    | none => exact .succeed ⟨inside, looked.follows⟩
    | some op =>
      have more : r.tokens ≠ [] := Reading.tokens_of_some found rfl rfl
      obtain ⟨m, rfl⟩ := follows.pos
      refine .bind (.advance looked.follows more) ?_
      rintro _ p r ⟨-, -, follows⟩
      refine .bind ((agrees_sum inner).call (by omega) follows) ?_
      rintro right p r ⟨behind, follows⟩
      exact .succeed ⟨inside.cover behind, follows.mono (Nat.le_succ m)⟩

theorem agrees_relation : Manages range (d + 1) (Attempt.relation expr) (Parse.relation expr') := by
  intro n p r le follows
  refine .currentScope follows (.ite (fun _ => agrees_comparison inner le follows) fun _ => ?_)
  exact .withScope follows fun p follows => agrees_comparison inner le follows

theorem agrees_boolFactor :
    Manages range (d + 1) (Attempt.boolFactor expr) (Parse.boolFactor expr') := by
  intro n p r le follows
  refine .look follows fun t p kind _ looked => ?_
  rw [kind]
  cases found : r.current.kind with
  | symbol s =>
    have more := Reading.tokens_ne_nil found (by simp) (by simp)
    cases s with
    | bang => exact agrees_behindUnary (agrees_relation inner) le looked.follows more
    | _ => exact agrees_relation inner le looked.follows
  | keyword w =>
    have more := Reading.tokens_ne_nil found (by simp) (by simp)
    cases w with
    | not => exact agrees_behindUnary (agrees_relation inner) le looked.follows more
    | _ => exact agrees_relation inner le looked.follows
  | _ => exact agrees_relation inner le looked.follows

theorem agrees_boolExpr : Manages range (d + 1) (Attempt.boolExpr expr) (Parse.boolExpr expr') :=
  (agrees_boolFactor inner).leftAssoc rfl rfl

theorem agrees_choice : Manages range (d + 1) (Attempt.choice expr) (Parse.choice expr') := by
  intro n p r le follows
  refine .bind (agrees_boolExpr inner le follows) ?_
  rintro cond p r ⟨inside, follows⟩
  refine .ifAt follows (fun p asks looked => ?_) fun p looked => .succeed ⟨inside, looked.follows⟩
  obtain ⟨m, rfl⟩ := follows.pos
  refine .bind (.advance looked.follows (Reading.tokens_ne_nil asks (by simp) (by simp))) ?_
  rintro _ p r ⟨-, -, follows⟩
  refine .bind (inner.call (by omega) follows) ?_
  rintro yes p r ⟨-, follows⟩
  obtain ⟨k, rfl⟩ := follows.pos
  refine .bind (.expect follows (by simp) (by simp)) ?_
  rintro _ p r ⟨-, -, follows⟩
  refine .bind (inner.call (by omega) follows) ?_
  rintro no p r ⟨behind, follows⟩
  exact .succeed ⟨inside.cover behind, follows.mono (by omega)⟩

end Grammar

theorem agrees_expressionUpTo (d : Nat) : ∀ {depth depth' : Nat}, d ≤ depth → d ≤ depth' →
    Manages range d (Attempt.expressionUpTo depth) (Parse.expressionUpTo depth') := by
  induction d with
  | zero =>
    intro _ _ _ _ n p r less
    exact absurd less (Nat.not_lt_zero n)
  | succ d ih =>
    intro depth depth' enough enough'
    obtain ⟨less, rfl⟩ : ∃ less, depth = less + 1 := ⟨depth - 1, by omega⟩
    obtain ⟨less', rfl⟩ : ∃ less', depth' = less' + 1 := ⟨depth' - 1, by omega⟩
    exact agrees_choice (ih (Nat.le_of_succ_le_succ enough) (Nat.le_of_succ_le_succ enough'))

theorem agrees_expression (d : Nat) : Manages range d Attempt.expression Parse.expression := by
  intro n p r _ follows
  refine .bounded Parse.expressionUpTo follows fun rounds enough => ?_
  have few := follows.few
  exact (agrees_expressionUpTo (r.tokens.length + 1) enough (Nat.le_refl _) (Nat.lt_succ_self _)
    follows.tight).leaves (Nat.le_of_lt_succ few)

theorem agrees_target (follows : p.Follows range (n + 1) r) :
    Agrees range (Wrote range n) Attempt.target Parse.target p r :=
  agrees_reference (agrees_expression n) (Nat.lt_succ_self n) follows

end Parser
end CircuitCompiler
