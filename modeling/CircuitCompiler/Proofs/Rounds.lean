import CircuitCompiler.Proofs.Reports

/-!
# Rounds of loops

A loop goes round until it leaves, and its text does not say that it ever does. The loops that run
here count their rounds, and give up when the count is spent. `Terminates` speaks of the same loop
without a count: it comes to a result, and every round that goes on is nearer to the end than the one
before.

* `Terminates.of_counted`: a loop that counts comes to what the loop without a count comes to, if the
  rounds make headway and the count is high enough;
* `Attempt.turn`: a step of a parser as a round;
* `Attempt.untilRound`, `leftRound`, `headerRound`, `bodyRound`: the rounds of the loops of the
  grammar, and that the loops are unrolled by them.
-/

namespace CircuitCompiler

/-- What a round of a loop comes to: the loop goes on from another state, or leaves with a result. -/
inductive Turn (σ α : Type) where
  | again (s : σ)
  | leave (a : α)

/-- The result of a loop behind a round, where `more` is what the loop comes to if it goes on. -/
def Turn.result {σ α : Type} (more : σ → α) : Turn σ α → α
  | again s => more s
  | leave a => a

section Loops

variable {σ α : Type} {round : σ → Turn σ α} {left : σ → Nat}

/-- The loop comes from a state to a result. Every round that goes on leaves less than there was; no
count bounds the rounds. -/
inductive Terminates (round : σ → Turn σ α) (left : σ → Nat) : σ → α → Prop
  | leaves {s : σ} {a : α} : round s = .leave a → Terminates round left s a
  | goesOn {s s' : σ} {a : α} : round s = .again s' → left s' < left s → Terminates round left s' a →
      Terminates round left s a

/-- A loop that counts its rounds, from a state where the count is more than what is left. -/
theorem Terminates.of_counted (counted : Nat → σ → α) (good : σ → Prop)
    (unroll : ∀ n s, counted (n + 1) s = (round s).result (counted n))
    (ahead : ∀ s s', good s → round s = .again s' → good s' ∧ left s' < left s) (n : Nat) :
    ∀ s, good s → left s < n → Terminates round left s (counted n s) := by
  -- on the count; a round takes one of it, and of what is left at least one
  induction n with
  | zero => exact fun s _ none => absurd none (Nat.not_lt_zero _)
  | succ n ih =>
    intro s holds enough
    rw [unroll]
    cases found : round s with
    | leave a => exact .leaves found
    | again s' =>
      obtain ⟨holds', less⟩ := ahead s s' holds found
      exact .goesOn found less (ih s' holds' (Nat.lt_of_lt_of_le less (Nat.le_of_lt_succ enough)))

end Loops

namespace Attempt

/-! ## Rounds of parsers -/

instance : LawfulMonad Attempt :=
  .mk' Attempt
    (fun x => funext fun p => by
      show andThen x succeed p = x p
      unfold andThen
      rcases x p with ⟨_ | _, _⟩ <;> rfl)
    (fun _ _ => rfl)
    (fun x f g => funext fun p => by
      show andThen (andThen x f) g p = andThen x (fun a => andThen (f a) g) p
      unfold andThen
      rcases x p with ⟨_ | _, _⟩ <;> rfl)

section Rounds

variable {σ α : Type}

/-- A step as a round of a loop. If it fails the loop leaves without a result. -/
def turn (body : σ → Attempt (Turn σ α)) : σ × Parser → Turn (σ × Parser) (Option α × Parser) :=
  fun (s, p) =>
    match body s p with
    | (some (.again s'), p') => .again (s', p')
    | (some (.leave a), p') => .leave (some a, p')
    | (none, p') => .leave (none, p')

/-- What comes behind a round. -/
def follow (loop : σ → Attempt α) : Turn σ α → Attempt α
  | .again s => loop s
  | .leave a => succeed a

/-- A loop that counts its rounds and does `body` in each. -/
def Unrolls (loop : Nat → σ → Attempt α) (body : σ → Attempt (Turn σ α)) : Prop :=
  ∀ n s, loop (n + 1) s = body s >>= follow (loop n)

theorem Unrolls.turn {loop : Nat → σ → Attempt α} {body : σ → Attempt (Turn σ α)}
    (h : Unrolls loop body) (n : Nat) (s : σ × Parser) :
    loop (n + 1) s.1 s.2 = (turn body s).result fun s' => loop n s'.1 s'.2 := by
  obtain ⟨s, p⟩ := s
  rw [h]
  show andThen (body s) _ p = _
  unfold andThen Attempt.turn
  dsimp only
  rcases body s p with ⟨_ | ⟨_ | _⟩, _⟩ <;> rfl

theorem run_of_turn {body : σ → Attempt (Turn σ α)} {s s' : σ} {p p' : Parser}
    (h : turn body (s, p) = .again (s', p')) : body s p = (some (.again s'), p') := by
  unfold turn at h
  dsimp only at h
  split at h
  · next run =>
    cases h
    exact run
  · cases h
  · cases h

end Rounds

/-! ## The loops of the grammar -/

/-- A round that leaves where the closing token is next and takes a step where it is not. -/
def untilRound {α : Type} (close : Kind) (step : List α → Attempt α) (done : List α) :
    Attempt (Turn (List α) (List α)) := do
  if ← isAt close then succeed (.leave done)
  else
    let a ← step done
    succeed (.again (done ++ [a]))

/-- A round behind a left operand: an operator and the operand to its right, if one is next. -/
def leftRound (next : Attempt Expr) (op? : Kind → Option Operator) (left : Expr) :
    Attempt (Turn Expr Expr) := do
  match op? (← peek).kind with
  | none => succeed (.leave left)
  | some op =>
    let _ ← advance
    let right ← next
    succeed (.again (.binary (left.span.cover right.span) op left right))

/-- A round in front of a raw block: a token before the brace that opens it. -/
def headerRound (kind : BlockKind) (_ : Unit) : Attempt (Turn Unit Unit) := do
  match (← peek).kind with
  | .symbol .lbrace => succeed (.leave ())
  | .eof | .invalid | .symbol .rbrace | .symbol .semicolon => unexpected (.openBlock kind)
  | _ =>
    let _ ← advance
    succeed (.again ())

/-- A round in a raw block: a token, which may open or close a brace, while braces are open. -/
def bodyRound (kind : BlockKind) (opening : Span) : Nat → Attempt (Turn Nat Unit)
  | 0 => succeed (.leave ())
  | depth + 1 => do
    match (← peek).kind with
    | .eof | .invalid => fail (.unclosedBlock kind) opening
    | .symbol .lbrace =>
      let _ ← advance
      succeed (.again (depth + 2))
    | .symbol .rbrace =>
      let _ ← advance
      succeed (.again depth)
    | _ =>
      let _ ← advance
      succeed (.again (depth + 1))

theorem untilAt_unrolls {α : Type} (close : Kind) (step : List α → Attempt α) :
    Unrolls (untilAt close step) (untilRound close step) := by
  intro n done
  rw [untilAt, untilRound, bind_assoc]
  refine bind_congr fun closes => ?_
  cases closes with
  | true => rfl
  | false =>
    rw [if_neg (by simp), if_neg (by simp), bind_assoc]
    rfl

theorem leftRounds_unrolls (next : Attempt Expr) (op? : Kind → Option Operator) :
    Unrolls (leftRounds next op?) (leftRound next op?) := by
  intro n left
  rw [leftRounds, leftRound, bind_assoc]
  refine bind_congr fun t => ?_
  cases op? t.kind with
  | none => rfl
  | some op =>
    dsimp only
    simp only [bind_assoc]
    rfl

/-- A complaint ends every step that it stands in. -/
theorem fail_bind {α β : Type} (cause : Cause) (span : Span) (f : α → Attempt β) :
    fail cause span >>= f = fail cause span := by
  funext p
  show andThen (fail cause span) f p = _
  unfold andThen fail
  cases p.error? <;> rfl

theorem unexpected_bind {α β : Type} (wanted : Wanted) (f : α → Attempt β) :
    unexpected wanted >>= f = unexpected wanted := by
  refine (bind_assoc peek _ f).trans (bind_congr fun t => funext fun p => ?_)
  exact congrFun (fail_bind _ _ f) p

/-- A round that takes a token and goes on. -/
theorem taken_follow {σ α : Type} (loop : σ → Attempt α) (s : σ) :
    (advance >>= fun _ => succeed (.again s)) >>= follow loop = advance >>= fun _ => loop s := by
  rw [bind_assoc]
  rfl

theorem blockHeader_unrolls (kind : BlockKind) :
    Unrolls (fun n (_ : Unit) => blockHeader kind n) (headerRound kind) := by
  intro n _
  refine .trans (bind_congr fun t => ?_) (bind_assoc peek _ _).symm
  cases t.kind with
  | eof | invalid => exact (unexpected_bind _ _).symm
  | symbol s =>
    cases s with
    | lbrace => rfl
    | rbrace | semicolon => exact (unexpected_bind _ _).symm
    | _ => exact (taken_follow (fun _ => blockHeader kind n) ()).symm
  | _ => exact (taken_follow (fun _ => blockHeader kind n) ()).symm

theorem blockBody_unrolls (kind : BlockKind) (opening : Span) :
    Unrolls (blockBody kind opening) (bodyRound kind opening) := by
  intro n depth
  cases depth with
  | zero => rfl
  | succ depth =>
    refine .trans (bind_congr fun t => ?_) (bind_assoc peek _ _).symm
    cases t.kind with
    | eof | invalid => exact (fail_bind _ _ _).symm
    | symbol s => cases s <;> exact (taken_follow (blockBody kind opening n) _).symm
    | _ => exact (taken_follow (blockBody kind opening n) _).symm

end Attempt
end CircuitCompiler
