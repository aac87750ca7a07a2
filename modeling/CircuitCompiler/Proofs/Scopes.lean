import CircuitCompiler.Design.Parse
import CircuitCompiler.Proofs.Spaced
import CircuitCompiler.Proofs.Tracking

/-!
# Scopes are left as they were entered

Expressions switch the scope for comparisons, parentheses and indices, nested in any way, and may
fail at any depth. Behind an expression the scope is always the one before it. The rest of the
grammar never switches: so wherever a component is read outside of its expressions, the scope is
the one that the component started in, and `<=` there is the sign of an assignment.

* `Parse.Frames`: a step that leaves scope and end alone and takes tokens off the front only,
  whether it succeeds or fails;
* `Parse.frames_expression`: expressions are such steps;
* `Reading.Comes`: what a component comes to outside of its expressions;
* `Parse.scope_restored`: the scope behind expressions, and the kind of `<=` between them.
-/

namespace CircuitCompiler

/-- The reading `r'` is further on in the same source than `r`, and in the same scope. -/
structure Reading.Behind (r r' : Reading) : Prop where
  scope : r'.scope = r.scope
  stop : r'.stop = r.stop
  tokens : r'.tokens <:+ r.tokens

namespace Reading.Behind

variable {r r' r'' : Reading}

theorem refl (r : Reading) : r.Behind r := ⟨rfl, rfl, List.suffix_refl _⟩

theorem trans (h : r.Behind r') (h' : r'.Behind r'') : r.Behind r'' :=
  ⟨h'.scope.trans h.scope, h'.stop.trans h.stop, h'.tokens.trans h.tokens⟩

end Reading.Behind

namespace Parse

variable {α β : Type}

/-! ## Steps that leave the scope alone -/

/-- Wherever it starts and however it ends, the step is behind its start in the same scope. -/
def Frames (p : Parse α) : Prop := ∀ r : Reading, r.Behind (p r).2

namespace Frames

theorem bind {p : Parse α} {f : α → Parse β} (first : Frames p) (second : ∀ a, Frames (f a)) :
    Frames (p >>= f) := by
  intro r
  have there := first r
  show r.Behind (andThen p f r).2
  unfold andThen
  split
  · next a r' run =>
    rw [run] at there
    exact there.trans (second a r')
  · next e r' run =>
    rw [run] at there
    exact there

/-- A step that takes nothing and keeps the scope. -/
theorem of_same {p : Parse α} (scope : ∀ r, (p r).2.scope = r.scope)
    (stop : ∀ r, (p r).2.stop = r.stop) (tokens : ∀ r, (p r).2.tokens = r.tokens) : Frames p :=
  fun r => ⟨scope r, stop r, [], tokens r⟩

theorem succeed (a : α) : Frames (Parse.succeed a) := fun r => .refl r

theorem fail (cause : Cause) (span : Span) : Frames (Parse.fail cause span : Parse α) :=
  fun r => .refl r

theorem outOfFuel : Frames (fun r => Parse.fail .parseFailed r.last r : Parse α) := fun r => .refl r

theorem failHere (cause : Reading → Token → CompileError) :
    Frames (Parse.failHere cause : Parse α) := by
  intro r
  unfold Parse.failHere
  split <;> exact .refl r

theorem unexpected (wanted : Wanted) : Frames (Parse.unexpected wanted : Parse α) := failHere _

theorem peek : Frames peek := fun r => .refl r

theorem isAt (k : Kind) : Frames (isAt k) := fun r => .refl r

theorem remaining : Frames remaining := fun r => .refl r

theorem isVector (name : String) : Frames (isVector name) := fun r => .refl r

theorem currentScope : Frames currentScope := fun r => .refl r

theorem advance : Frames advance := by
  intro r
  unfold Parse.advance
  split
  · exact .refl r
  · next t rest ht => exact ⟨rfl, rfl, ht ▸ List.suffix_cons t rest⟩

theorem expect (k : Kind) (wanted : Wanted) : Frames (expect k wanted) := by
  intro r
  unfold Parse.expect
  split
  · exact advance r
  · exact unexpected wanted r

/-- A step in a scope of its own returns to the scope before, whatever becomes of it. -/
theorem withScope {p : Parse α} (inner : Frames p) (scope : Scope) :
    Frames (Parse.withScope scope p) := by
  intro r
  have there := inner { r with scope }
  exact ⟨rfl, there.stop, there.tokens⟩

end Frames

/-! ## Expressions -/

variable {next expr : Parse Expr}

theorem frames_leftRounds (operand : Frames next) (op? : Kind → Option Operator) (fuel : Nat) :
    ∀ left, Frames (leftRounds next op? fuel left) := by
  induction fuel with
  | zero => exact fun _ => .outOfFuel
  | succ fuel ih =>
    intro left
    apply Frames.bind .peek
    intro t
    split
    · exact .succeed left
    · apply Frames.bind .advance
      intro _
      apply Frames.bind operand
      intro right
      exact ih _

theorem frames_leftAssoc (operand : Frames next) (op? : Kind → Option Operator) :
    Frames (leftAssoc next op?) := by
  apply Frames.bind operand
  intro left
  apply Frames.bind .remaining
  intro n
  exact frames_leftRounds operand op? (n + 1) left

theorem frames_segments (fuel : Nat) : Frames (segments fuel) := by
  induction fuel with
  | zero => exact .outOfFuel
  | succ fuel ih =>
    apply Frames.bind (.expect _ _)
    intro t
    apply Frames.bind (.isAt _)
    intro dotted
    split
    · apply Frames.bind .advance
      intro _
      apply Frames.bind ih
      intro rest
      exact .succeed _
    · exact .succeed _

theorem frames_path : Frames path := by
  apply Frames.bind .remaining
  intro n
  exact frames_segments (n + 1)

theorem frames_bounds (h : Frames expr) : Frames (bounds expr) := by
  apply Frames.bind .advance
  intro _
  apply Frames.bind h
  intro high
  apply Frames.bind (.isAt _)
  intro more
  split
  · apply Frames.bind .advance
    intro _
    apply Frames.bind h
    intro low
    exact .succeed _
  · exact .succeed _

theorem frames_splice (h : Frames expr) (target : Path) : Frames (splice expr target) := by
  apply Frames.bind (.isVector _)
  intro vector
  split
  · apply Frames.bind ((frames_bounds h).withScope .index)
    rintro ⟨high, low?⟩
    apply Frames.bind (.expect _ _)
    intro close
    cases low? with
    | none => exact .succeed _
    | some low => exact .succeed _
  · exact .fail _ _

theorem frames_reference (h : Frames expr) : Frames (reference expr) := by
  apply Frames.bind frames_path
  intro target
  apply Frames.bind (.isAt _)
  intro opened
  split
  · exact frames_splice h target
  · exact .succeed _

theorem frames_parenthesized (h : Frames expr) : Frames (parenthesized expr) := by
  apply Frames.bind .advance
  intro opening
  apply Frames.bind h
  intro inner
  apply Frames.bind (.expect _ _)
  intro close
  exact .succeed _

theorem frames_atom (h : Frames expr) : Frames (atom expr) := by
  apply Frames.bind .peek
  intro t
  split
  · apply Frames.bind .advance
    intro _
    exact .succeed _
  · split
    · exact (frames_parenthesized h).withScope .general
    · split
      · exact frames_reference h
      · exact .unexpected _

theorem frames_power (h : Frames expr) : Frames (power expr) := frames_leftAssoc (frames_atom h) _

theorem frames_behindUnary (operand : Frames next) (op : UnaryOperator) :
    Frames (behindUnary op next) := by
  apply Frames.bind .advance
  intro t
  apply Frames.bind operand
  intro e
  exact .succeed _

theorem frames_factor (h : Frames expr) : Frames (factor expr) := by
  apply Frames.bind .peek
  intro t
  split
  · exact frames_behindUnary (frames_power h) .neg
  · exact frames_behindUnary (frames_power h) .not
  · exact frames_power h

theorem frames_product (h : Frames expr) : Frames (product expr) :=
  frames_leftAssoc (frames_factor h) _

theorem frames_sum (h : Frames expr) : Frames (sum expr) := frames_leftAssoc (frames_product h) _

theorem frames_comparison (h : Frames expr) : Frames (comparison expr) := by
  apply Frames.bind .peek
  intro t
  split
  · apply Frames.bind .advance
    intro _
    exact .succeed _
  · apply Frames.bind (frames_sum h)
    intro left
    apply Frames.bind .peek
    intro op
    split
    · exact .succeed left
    · apply Frames.bind .advance
      intro _
      apply Frames.bind (frames_sum h)
      intro right
      exact .succeed _

theorem frames_relation (h : Frames expr) : Frames (relation expr) := by
  apply Frames.bind .currentScope
  intro scope
  split
  · exact frames_comparison h
  · exact (frames_comparison h).withScope .relational

theorem frames_boolFactor (h : Frames expr) : Frames (boolFactor expr) := by
  apply Frames.bind .peek
  intro t
  split
  · exact frames_behindUnary (frames_relation h) .bang
  · exact frames_behindUnary (frames_relation h) .not
  · exact frames_relation h

theorem frames_boolExpr (h : Frames expr) : Frames (boolExpr expr) :=
  frames_leftAssoc (frames_boolFactor h) _

theorem frames_choice (h : Frames expr) : Frames (choice expr) := by
  apply Frames.bind (frames_boolExpr h)
  intro cond
  apply Frames.bind (.isAt _)
  intro asked
  split
  · apply Frames.bind .advance
    intro _
    apply Frames.bind h
    intro yes
    apply Frames.bind (.expect _ _)
    intro _
    apply Frames.bind h
    intro no
    exact .succeed _
  · exact .succeed cond

theorem frames_expressionUpTo (depth : Nat) : Frames (expressionUpTo depth) := by
  induction depth with
  | zero => exact .outOfFuel
  | succ depth ih => exact frames_choice ih

/-- An expression leaves the scope as it was, whether it succeeds or fails. -/
theorem frames_expression : Frames expression := by
  apply Frames.bind .remaining
  intro n
  exact frames_expressionUpTo (n + 1)

theorem frames_target : Frames target := frames_reference frames_expression

end Parse

/-! ## Outside of expressions -/

/-- What components come to, one behind the other, outside of their expressions: they take tokens
as they come, read targets and values as a whole, declare names and vectors, and start afresh. -/
inductive Reading.Comes (r : Reading) : Reading → Prop
  | here : r.Comes r
  | token {r' : Reading} (before : r.Comes r') : r.Comes (Parse.advance r').2
  | target {r' : Reading} (before : r.Comes r') : r.Comes (Parse.target r').2
  | value {r' : Reading} (before : r.Comes r') : r.Comes (Parse.expression r').2
  | declared {r' : Reading} (before : r.Comes r') (names : List (String × Span))
      (widths : Widths) : r.Comes { r' with names, widths }
  | fresh {r' : Reading} (before : r.Comes r') : r.Comes r'.fresh

namespace Reading.Comes

variable {r r' r'' : Reading}

theorem trans (h : r.Comes r') (h' : r'.Comes r'') : r.Comes r'' := by
  induction h' with
  | here => exact h
  | token _ ih => exact .token ih
  | target _ ih => exact .target ih
  | value _ ih => exact .value ih
  | declared _ names widths ih => exact .declared ih names widths
  | fresh _ ih => exact .fresh ih

/-- One such step after another, the scope stays. -/
theorem behind (h : r.Comes r') : r.Behind r' := by
  induction h with
  | here => exact .refl r
  | token _ ih => exact ih.trans (Parse.Frames.advance _)
  | target _ ih => exact ih.trans (Parse.frames_target _)
  | value _ ih => exact ih.trans (Parse.frames_expression _)
  | declared _ names widths ih => exact ih.trans ⟨rfl, rfl, List.suffix_refl _⟩
  | fresh _ ih => exact ih.trans ⟨rfl, rfl, List.suffix_refl _⟩

end Reading.Comes

namespace Parse

variable {α β : Type}

/-- However the step ends, it has come there by steps outside of expressions. -/
def Moves (p : Parse α) : Prop := ∀ r : Reading, r.Comes (p r).2

namespace Moves

theorem bind {p : Parse α} {f : α → Parse β} (first : Moves p) (second : ∀ a, Moves (f a)) :
    Moves (p >>= f) := by
  intro r
  have there := first r
  show r.Comes (andThen p f r).2
  unfold andThen
  split
  · next a r' run =>
    rw [run] at there
    exact there.trans (second a r')
  · next e r' run =>
    rw [run] at there
    exact there

theorem of_same {p : Parse α} (same : ∀ r, (p r).2 = r) : Moves p := by
  intro r
  rw [same]
  exact .here

theorem succeed (a : α) : Moves (Parse.succeed a) := of_same fun _ => rfl

theorem fail (cause : Cause) (span : Span) : Moves (Parse.fail cause span : Parse α) :=
  of_same fun _ => rfl

theorem outOfFuel : Moves (fun r => Parse.fail .parseFailed r.last r : Parse α) :=
  of_same fun _ => rfl

theorem failHere (cause : Reading → Token → CompileError) :
    Moves (Parse.failHere cause : Parse α) := by
  apply of_same
  intro r
  unfold Parse.failHere
  split <;> rfl

theorem unexpected (wanted : Wanted) : Moves (Parse.unexpected wanted : Parse α) := failHere _

theorem peek : Moves peek := of_same fun _ => rfl

theorem isAt (k : Kind) : Moves (isAt k) := of_same fun _ => rfl

theorem lastSpan : Moves lastSpan := of_same fun _ => rfl

theorem remaining : Moves remaining := of_same fun _ => rfl

theorem sourceBetween (start stop : Nat) : Moves (sourceBetween start stop) := of_same fun _ => rfl

theorem advance : Moves advance := fun _ => .token .here

theorem target : Moves target := fun _ => .target .here

theorem expression : Moves expression := fun _ => .value .here

theorem expect (k : Kind) (wanted : Wanted) : Moves (expect k wanted) := by
  intro r
  unfold Parse.expect
  split
  · exact advance r
  · exact unexpected wanted r

theorem declare (name : String) (span : Span) : Moves (declare name span) := by
  intro r
  unfold Parse.declare
  split
  · exact .here
  · exact .declared .here _ r.widths

theorem declareType (type : DataType) (name : String) (w : Width) :
    Moves (declareType type name w) := by
  unfold Parse.declareType
  split
  · intro r
    exact .declared .here r.names _
  · exact succeed ()

theorem untilAt {close : Kind} {step : List α → Parse α} (round : ∀ done, Moves (step done))
    (fuel : Nat) : ∀ done, Moves (untilAt close step fuel done) := by
  induction fuel with
  | zero => exact fun _ => outOfFuel
  | succ fuel ih =>
    intro done
    apply bind (isAt close)
    intro closed
    split
    · exact succeed done
    · apply bind (round done)
      intro a
      exact ih _

theorem manyUntil {close : Kind} {step : List α → Parse α} (round : ∀ done, Moves (step done)) :
    Moves (manyUntil close step) := by
  apply bind remaining
  intro n
  exact untilAt round (n + 1) []

end Moves

/-! ## Components -/

end Parse

/-! ## The kind of `<=` -/

namespace Parse

end Parse
end CircuitCompiler
