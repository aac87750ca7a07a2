import CircuitCompiler.Proofs.Headway
import Mathlib.Logic.Function.Iterate

/-!
# The loops and the calls of the grammar

What a parser at work does in a loop, or by calling itself, comes to an end wherever the parser
stands. A round of a loop takes a token. So does what stands in front of a call, and calls deeper
than the tokens that are left are never made.

* `Parser.Settles`: a step that calls itself comes to the same whatever its deepest calls would do;
* `Parser.LoopsEnd`: all the loops of the grammar and all the calls end;
* `Parser.Working.loopsEnd`: they do for every parser at work.
-/

namespace CircuitCompiler

namespace Parser

/-! ## Calls -/

section Calls

variable {α : Type} {p : Parser}

/-- The step, which calls itself as `call` says, makes no call that is deeper than what is left:
whatever stands in for such a call, the result is the same. -/
def Settles (call : Attempt α → Attempt α) (x : Attempt α) (p : Parser) : Prop :=
  ∀ depth deepest, p.left < depth → ((call^[depth] deepest) p).1 = (x p).1

/-- The step agrees with that of the grammar where fewer than `d` tokens are left, and takes one at
least. -/
def Meets (post : Span → Nat → α → Parser → Reading → Prop) (d : Nat) (x : Attempt α)
    (y : Parse α) : Prop :=
  ∀ ⦃range n p r⦄, n < d → p.Follows range (n + 1) r → Agrees range (post range n) x y p r

/-- Runs that end alike have the same result. -/
theorem Ends.result {range : Span} {post : α → Parser → Reading → Prop} {ours : Option α × Parser}
    {theirs : Except CompileError α × Reading} (h : Ends range post ours theirs) :
    ours.1 = theirs.1.toOption := by
  cases h <;> rfl

section Step

variable (post : Span → Nat → α → Parser → Reading → Prop) {call : Attempt α → Attempt α}
  {calls : Nat → Attempt α} (calls' : Nat → Parse α)

variable (step : ∀ {d x k}, Meets post d x (calls' k) → Meets post (d + 1) (call x) (calls' (k + 1)))

include step

theorem meets_iterate (deepest : Attempt α) (d : Nat) :
    ∀ {depth k : Nat}, d ≤ depth → d ≤ k → Meets post d (call^[depth] deepest) (calls' k) := by
  induction d with
  | zero => exact fun _ _ _ n _ _ less => absurd less (Nat.not_lt_zero n)
  | succ d ih =>
    intro depth k enough enough'
    obtain ⟨depth, rfl⟩ : ∃ less, depth = less + 1 := ⟨depth - 1, by omega⟩
    obtain ⟨k, rfl⟩ : ∃ less, k = less + 1 := ⟨k - 1, by omega⟩
    rw [Function.iterate_succ_apply']
    exact step (ih (Nat.le_of_succ_le_succ enough) (Nat.le_of_succ_le_succ enough'))

theorem Working.settles (working : p.Working) (deepens : ∀ n, calls (n + 1) = call (calls n)) :
    p.Settles call (Attempt.bounded calls) := by
  have bound := working.bound
  obtain ⟨range, n, r, follows⟩ := working
  -- the result is that of the grammar, for every depth that is enough
  have result (deepest : Attempt α) (depth : Nat) (enough : p.left < depth) :
      ((call^[depth] deepest) p).1 = (calls' (r.tokens.length + 1) r).1.toOption := by
    rw [follows.left] at enough
    have meets : Meets post (r.tokens.length + 1) (call^[depth] deepest)
        (calls' (r.tokens.length + 1)) :=
      meets_iterate post calls' step deepest _ enough (Nat.le_refl _)
    exact (meets (Nat.lt_succ_self _) follows.tight).result
  have iterated (n : Nat) : calls n = call^[n] (calls 0) := by
    induction n with
    | zero => rfl
    | succ n ih => rw [deepens, ih, Function.iterate_succ_apply']
  intro depth deepest enough
  show _ = (calls p.bound p).1
  rw [iterated, result deepest depth enough, result (calls 0) p.bound bound]

end Step

theorem Working.settles_path (working : p.Working) :
    p.Settles Attempt.segmentsThen Attempt.path := by
  refine working.settles Named Parse.segments ?_ fun _ => rfl
  intro d more k meets range n p r less follows
  exact agrees_segmentsThen (fun later => meets (by omega)) follows

theorem Working.settles_bindings (working : p.Working) :
    p.Settles Attempt.bindingsThen (Attempt.bounded Attempt.bindingsUpTo) := by
  refine working.settles (fun range n => Reaches range (n + 1)) Parse.bindingsUpTo ?_ fun _ => rfl
  intro d more k meets range n p r less follows
  exact agrees_bindingsThen (fun later => meets (by omega)) follows

theorem Working.settles_expression (working : p.Working) :
    p.Settles Attempt.choice Attempt.expression := by
  refine working.settles Wrote Parse.expressionUpTo ?_ fun _ => rfl
  intro d expr k meets range n p r less follows
  exact agrees_choice (@meets range) less follows

end Calls

/-! ## Loops -/

end Parser

/-- The chains of the grammar of expressions: what stands between the operators, and which they are.
-/
def Attempt.chains (expr : Attempt Expr) : List (Attempt Expr × (Kind → Option Operator)) :=
  [(boolFactor expr, Kind.boolOp?), (product expr, Kind.sumOp?), (factor expr, Kind.productOp?),
    (atom expr, Kind.powerOp?)]

namespace Parser

/-- What the parser does in a loop ends, with headway in every round: the loops over the parts of a
component, its ports, the statements of an architecture, the tokens in front of a raw block and in
it, and the operators of a chain, whose operands may nest deeper than there are tokens left. So do
the calls of paths, bindings and expressions. -/
structure LoopsEnd (p : Parser) : Prop where
  items : ∀ name, p.Loops (Attempt.untilRound (.symbol .rbrace) (Attempt.item name)) []
    (Attempt.manyUntil (.symbol .rbrace) (Attempt.item name))
  ports : p.Loops (Attempt.untilRound (.symbol .rbrace) fun _ => Attempt.port) []
    (Attempt.manyUntil (.symbol .rbrace) fun _ => Attempt.port)
  stmts : p.Loops (Attempt.untilRound (.symbol .rbrace) fun _ => Attempt.stmt) []
    (Attempt.manyUntil (.symbol .rbrace) fun _ => Attempt.stmt)
  header : ∀ kind, p.Loops (Attempt.headerRound kind) ()
    (Attempt.bounded (Attempt.blockHeader kind))
  body : ∀ kind opening, p.Loops (Attempt.bodyRound kind opening) 1
    (Attempt.bounded fun rounds => Attempt.blockBody kind opening rounds 1)
  chains : ∀ depth next op? left, p.left < depth →
    (next, op?) ∈ Attempt.chains (Attempt.expressionUpTo depth) →
      p.Loops (Attempt.leftRound next op?) left
        (Attempt.bounded fun rounds => Attempt.leftRounds next op? rounds left)
  path : p.Settles Attempt.segmentsThen Attempt.path
  bindings : p.Settles Attempt.bindingsThen (Attempt.bounded Attempt.bindingsUpTo)
  expression : p.Settles Attempt.choice Attempt.expression

section Loops

variable {p : Parser}

/-- A loop up to a closing token, where each step takes a token. -/
theorem Working.loops_manyUntil {α : Type} {close : Kind} {step : List α → Attempt α}
    (working : p.Working)
    (taken : ∀ done (p : Parser), p.Working → Attempt.Gets (Attempt.Below p.left) (step done) p) :
    p.Loops (Attempt.untilRound close step) [] (Attempt.manyUntil close step) :=
  .of_rounds (Attempt.untilAt_unrolls close step)
    (fun done _ working _ => Attempt.untilRound_ahead working fun p' working' _ =>
      taken done p' working')
    working (Nat.lt_succ_self _) []

/-- A step of the grammar that takes a token. -/
theorem Working.below {α : Type} {x : Attempt α} {y : Parse α} (working : p.Working)
    (agrees : ∀ {range n r}, p.Follows range (n + 1) r → Agrees range (Reaches range n) x y p r) :
    Attempt.Gets (Attempt.Below p.left) x p := by
  obtain ⟨range, n, r, follows⟩ := working
  exact .of_agrees follows (agrees follows.tight) fun _ _ _ behind => behind

theorem Working.below_of_manages {d : Nat} {x : Attempt Expr} {y : Parse Expr}
    (working : p.Working) (less : p.left < d) (manages : ∀ range, Manages range d x y) :
    Attempt.Gets (Attempt.Below p.left) x p := by
  obtain ⟨range, n, r, follows⟩ := working
  rw [follows.left] at less
  exact .of_agrees follows (manages range less follows.tight) fun _ _ _ wrote => wrote.2

theorem chains_below {depth : Nat} {next : Attempt Expr} {op? : Kind → Option Operator}
    (mem : (next, op?) ∈ Attempt.chains (Attempt.expressionUpTo depth)) :
    op? .eof = none ∧ op? .invalid = none ∧ ∀ p : Parser, p.Working → p.left < depth →
      Attempt.Gets (Attempt.Below p.left) next p := by
  have inner (range : Span) :
      Manages range depth (Attempt.expressionUpTo depth) (Parse.expressionUpTo depth) :=
    agrees_expressionUpTo depth (Nat.le_refl _) (Nat.le_refl _)
  have managed {x : Attempt Expr} {y : Parse Expr} (h : ∀ range, Manages range (depth + 1) x y)
      (p : Parser) (working : p.Working) (less : p.left < depth) :
      Attempt.Gets (Attempt.Below p.left) x p :=
    working.below_of_manages (Nat.lt_succ_of_lt less) h
  simp only [Attempt.chains, List.mem_cons, List.not_mem_nil, or_false, Prod.mk.injEq] at mem
  rcases mem with ⟨rfl, rfl⟩ | ⟨rfl, rfl⟩ | ⟨rfl, rfl⟩ | ⟨rfl, rfl⟩
  · exact ⟨rfl, rfl, managed fun range => agrees_boolFactor (inner range)⟩
  · exact ⟨rfl, rfl, managed fun range => agrees_product (inner range)⟩
  · exact ⟨rfl, rfl, managed fun range => agrees_factor (inner range)⟩
  · exact ⟨rfl, rfl, managed fun range => agrees_atom (inner range)⟩

theorem Working.loops_chain {depth : Nat} {next : Attempt Expr} {op? : Kind → Option Operator}
    (working : p.Working) (less : p.left < depth)
    (mem : (next, op?) ∈ Attempt.chains (Attempt.expressionUpTo depth)) (left : Expr) :
    p.Loops (Attempt.leftRound next op?) left
      (Attempt.bounded fun rounds => Attempt.leftRounds next op? rounds left) := by
  obtain ⟨eof, invalid, taken⟩ := chains_below mem
  refine .of_rounds (Attempt.leftRounds_unrolls next op?) ?_ working less left
  intro left p working less
  exact Attempt.leftRound_ahead eof invalid working fun p' working' less' =>
    taken p' working' (Nat.lt_trans less' less)

/-- Every loop and every call of a parser at work ends. -/
theorem Working.loopsEnd (working : p.Working) : p.LoopsEnd where
  items _ := working.loops_manyUntil fun _ _ working => working.below agrees_item
  ports := working.loops_manyUntil fun _ _ working => working.below agrees_port
  stmts := working.loops_manyUntil fun _ _ working => working.below agrees_stmt
  header kind := .of_rounds (Attempt.blockHeader_unrolls kind)
    (fun _ _ working _ => Attempt.headerRound_ahead working) working (Nat.lt_succ_self _) ()
  body kind opening := .of_rounds (Attempt.blockBody_unrolls kind opening)
    (fun _ _ working _ => Attempt.bodyRound_ahead working) working (Nat.lt_succ_self _) 1
  chains _ _ _ left less mem := working.loops_chain less mem left
  path := working.settles_path
  bindings := working.settles_bindings
  expression := working.settles_expression

end Loops
end Parser
end CircuitCompiler
