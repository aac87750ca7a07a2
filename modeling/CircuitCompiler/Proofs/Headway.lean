import CircuitCompiler.Proofs.Rounds

/-!
# Headway of parsers

The place of a parser is told by the tokens that its lexer has still to hand out, not by the cursor:
a change of scope puts a token back, and the cursor with it, and behind a fault the lexer answers
every call although nothing is left. Looks and changes of scope leave the place as it is, and taking
a token moves it on by one. So every loop of the grammar gets nearer to the end of the source with
each of its rounds.

* `Lexer.left`, `Parser.left`: what is left of the source;
* `Parser.Working`, `Parser.Moves`: parsers at work, and what the single steps do to them;
* `Attempt.Gets`: what a step leaves when it has a result, with a rule for each single step;
* `Parser.Loops`: a loop without a count comes to what the loop that counts comes to.
-/

namespace CircuitCompiler

/-! ## Places of lexers -/

namespace Lexer

/-- How many tokens the lexer has still to hand out: the one it holds and those behind the cursor. The
end of the source is none of them, and behind a fault there are none. -/
def left (lx : Lexer) : Nat :=
  let ahead := if lx.fault.isSome then 0 else (Stream.ofCursor lx.cursor).tokens.length
  match lx.look with
  | none => ahead
  | some l => if l.token.kind = .eof ∨ l.token.kind = .invalid then 0 else ahead + 1

variable {lx : Lexer} {r : Reading}

/-- The lexer answers with the end or as invalid where no token is left, and only there. -/
theorem Gives.ends_iff (h : lx.Gives r) :
    r.current.kind = .eof ∨ r.current.kind = .invalid ↔ r.tokens = [] := by
  constructor
  · intro ends
    cases ht : r.tokens with
    | nil => rfl
    | cons t rest =>
      obtain ⟨-, more, valid, -⟩ := h.next ht
      exact (ends.elim more valid).elim
  · intro none
    rw [Reading.current, none]
    cases r.stop with
    | eof span => exact .inl rfl
    | fault e => exact .inr rfl

theorem Gives.left (h : lx.Gives r) : lx.left = r.tokens.length := by
  have ends := h.ends_iff
  have shown := h.peek.1
  obtain ⟨base, plain, fine, bare, stream, shows_⟩ := h
  cases shows_ with
  | level =>
    have ahead : (base.under r.scope).left = (Stream.ofCursor base.cursor).tokens.length := by
      simp only [Lexer.left, under, plain.look, fine]
      rfl
    rw [ahead, stream]
  | ahead =>
    obtain ⟨heldFault, heldCursor⟩ := holding_under plain r.scope
    have reads := reads_of_stream plain fine bare stream
    -- the token in the buffer is the one that a look shows
    have held : (base.under r.scope).holding.left =
        if r.current.kind = .eof ∨ r.current.kind = .invalid then 0
        else (if base.next.2.fault.isSome then 0
          else (Stream.ofCursor base.next.2.cursor).tokens.length) + 1 := by
      rw [← shown, ← heldFault, ← heldCursor]
      rfl
    rw [held]
    by_cases none : r.tokens = []
    · rw [if_pos (ends.mpr none), none]
      rfl
    · have clean : base.next.2.fault = .none := reads.fault.trans (Reading.fault?_of_tokens none)
      rw [if_neg fun stops => none (ends.mp stops), clean, (reads.behind clean none).2]
      show r.tokens.tail.length + 1 = r.tokens.length
      rw [List.length_tail, Nat.sub_add_cancel (List.length_pos_iff.mpr none)]

end Lexer

/-! ## Parsers at work -/

namespace Parser

/-- How many tokens the parser has still before it. -/
def left (p : Parser) : Nat := p.lexer.left

/-- The parser is at work: it is where a reading of the source is, and has failed in nothing. -/
def Working (p : Parser) : Prop := ∃ range n r, p.Follows range n r

variable {range : Span} {n : Nat} {p : Parser} {r : Reading}

theorem Follows.left (h : p.Follows range n r) : p.left = r.tokens.length := h.gives.left

theorem Follows.working (h : p.Follows range n r) : p.Working := ⟨range, n, r, h⟩

/-- The count of a parser's loops is more than what is left. -/
theorem Working.bound (h : p.Working) : p.left < p.bound := by
  obtain ⟨range, n, r, follows⟩ := h
  rw [follows.left]
  exact follows.bound

/-- What the single steps do to the place of a parser. A look, a change of scope and declarations keep
it. The end and faults are seen where nothing is left, and only there; where something is left it can
be taken. -/
structure Moves (p : Parser) : Prop where
  peek : ∃ t p', Attempt.peek p = (some t, p') ∧ p'.Working ∧ p'.left = p.left ∧
    (t.kind = .eof ∨ t.kind = .invalid ↔ p.left = 0)
  setScope : ∀ scope, let p' := { p with lexer := p.lexer.setScope scope }
    p'.Working ∧ p'.left = p.left
  declare : ∀ names widths, let p' := { p with names, widths }
    p'.Working ∧ p'.left = p.left
  advance : p.left ≠ 0 →
    ∃ t p', Attempt.advance p = (some t, p') ∧ p'.Working ∧ p'.left + 1 = p.left

theorem Working.moves (h : p.Working) : p.Moves := by
  obtain ⟨range, n, r, follows⟩ := h
  constructor
  · obtain ⟨t, p', run, kind, -, looked⟩ := Agrees.peek_looked follows
    refine ⟨t, p', run, looked.follows.working, ?_, ?_⟩
    · rw [looked.follows.left, follows.left]
    · rw [kind, follows.gives.ends_iff, follows.left, List.length_eq_zero_iff]
  · intro scope p'
    have moved : p'.Follows range n { r with scope } := follows.setScope scope
    exact ⟨moved.working, by rw [moved.left, follows.left]⟩
  · intro names widths p'
    have told : p'.Follows range n { r with names, widths } :=
      { follows with gives := follows.gives.congr rfl rfl rfl, names := rfl, widths := rfl }
    exact ⟨told.working, rfl⟩
  · intro more
    rw [follows.left, ne_eq, List.length_eq_zero_iff] at more
    obtain ⟨t, rest, ht⟩ := List.exists_cons_of_ne_nil more
    have taken : Agrees range (Took range r.tokens.length) Attempt.advance Parse.advance p r :=
      .advance follows.tight more
    have read : Parse.advance r = (.ok r.current, { r with tokens := rest, last := t.span }) := by
      simp only [Parse.advance, ht]
    unfold Agrees at taken
    rw [read] at taken
    generalize Attempt.advance p = run at taken ⊢
    cases taken with
    | ok took =>
      obtain ⟨-, -, behind⟩ := took
      exact ⟨_, _, rfl, behind.working, by rw [behind.left, follows.left, ht]; rfl⟩

/-- A change of scope puts the cursor back in front of the token that was looked at, and what is left
stays the same. -/
example :
    let lx := (Lexer.ofFile ⟨0, "", Bytes.ofString "a <= b", 0⟩ false).next.2.peek.2
    (lx.cursor.off, lx.left) = (4, 2) ∧
      ((lx.setScope .relational).cursor.off, (lx.setScope .relational).left) = (1, 2) := by
  decide +kernel

end Parser

/-! ## What steps leave -/

namespace Attempt

section Gets

variable {α β : Type} {p : Parser}

/-- Whenever the step has a result, the result and what is behind it are as `post` says. -/
def Gets (post : α → Parser → Prop) (x : Attempt α) (p : Parser) : Prop :=
  ∀ ⦃a p'⦄, x p = (some a, p') → post a p'

/-- A parser at work with fewer than `n` tokens before it. -/
abbrev Below (n : Nat) : α → Parser → Prop := fun _ p => p.Working ∧ p.left < n

namespace Gets

variable {post : β → Parser → Prop}

theorem succeed {b : β} (h : post b p) : Gets post (Attempt.succeed b) p := by
  intro _ _ run
  cases run
  exact h

theorem bind {mid : α → Parser → Prop} {x : Attempt α} {f : α → Attempt β} (first : Gets mid x p)
    (second : ∀ a p', mid a p' → Gets post (f a) p') : Gets post (x >>= f) p := by
  intro b p'' (run : andThen x f p = _)
  unfold andThen at run
  generalize found : x p = left at run
  obtain ⟨_ | a, p'⟩ := left
  · cases run
  · exact second a p' (first found) run

theorem fail {cause : Cause} {span : Span} : Gets post (Attempt.fail cause span) p := by
  intro _ _ run
  unfold Attempt.fail at run
  cases error : p.error? <;> simp [error] at run

theorem unexpected {wanted : Wanted} : Gets post (Attempt.unexpected wanted) p := by
  have looked : Gets (fun _ _ => True) peek p := fun _ _ _ => trivial
  exact .bind looked fun _ _ _ => fail

/-- A look: the parser stays where it is. A token that does not end the source can be taken. -/
theorem look {f : Token → Attempt β} (working : p.Working)
    (next : ∀ t p', p'.Working → p'.left = p.left →
      (t.kind ≠ .eof → t.kind ≠ .invalid → p'.left ≠ 0) → Gets post (f t) p') :
    Gets post (peek >>= f) p := by
  obtain ⟨t, p', run, working', place, ends⟩ := working.moves.peek
  have looked : Gets (fun a q => a = t ∧ q = p') peek p := by
    intro a q found
    rw [run] at found
    cases found
    exact ⟨rfl, rfl⟩
  refine .bind looked ?_
  rintro t p' ⟨rfl, rfl⟩
  refine next t p' working' place fun more valid none => ?_
  exact (ends.mpr (place ▸ none)).elim more valid

theorem advance {f : Token → Attempt β} (working : p.Working) (more : p.left ≠ 0)
    (next : ∀ t p', p'.Working → p'.left < p.left → Gets post (f t) p') :
    Gets post (Attempt.advance >>= f) p := by
  obtain ⟨t, p', run, working', less⟩ := working.moves.advance more
  have taken : Gets (Below p.left) Attempt.advance p := by
    intro _ _ found
    rw [run] at found
    cases found
    exact ⟨working', Nat.lt_of_succ_le (Nat.le_of_eq less)⟩
  exact .bind taken fun t p' ⟨working', less⟩ => next t p' working' less

/-- A choice by the kind of the next token. -/
theorem ifAt {κ : Kind} {yes no : Attempt β} (working : p.Working)
    (hy : ∀ p', p'.Working → p'.left = p.left → Gets post yes p')
    (hn : ∀ p', p'.Working → p'.left = p.left → Gets post no p') :
    Gets post (isAt κ >>= fun b => if b = true then yes else no) p := by
  have asked : (isAt κ >>= fun b => if b = true then yes else no) =
      peek >>= fun t => if (t.kind == κ) = true then yes else no := bind_assoc peek _ _
  rw [asked]
  refine look working fun t p' working' place _ => ?_
  split
  · exact hy p' working' place
  · exact hn p' working' place

/-- A step that takes what the grammar takes there, and so a token at least. -/
theorem of_agrees {range : Span} {n : Nat} {r : Reading} {after : β → Parser → Reading → Prop}
    {x : Attempt β} {y : Parse β} (follows : p.Follows range n r)
    (agrees : Parser.Agrees range after x y p r)
    (behind : ∀ b p' r', after b p' r' → p'.Follows range r.tokens.length r') :
    Gets (Below p.left) x p := by
  intro b p' run
  unfold Parser.Agrees at agrees
  rw [run] at agrees
  generalize y r = theirs at agrees
  cases agrees with
  | ok holds =>
    have follows' := behind _ _ _ holds
    refine ⟨follows'.working, ?_⟩
    rw [follows'.left, follows.left]
    exact follows'.few

end Gets
end Gets

/-! ## Rounds -/

section Ahead

variable {σ α : Type} {p : Parser}

/-- A round that goes on leaves a parser at work with fewer than `n` tokens before it. -/
def Ahead (n : Nat) : Turn σ α → Parser → Prop
  | .again _, p => p.Working ∧ p.left < n
  | .leave _, _ => True

theorem untilRound_ahead {close : Kind} {step : List α → Attempt α} {done : List α}
    (working : p.Working)
    (taken : ∀ p', p'.Working → p'.left = p.left → Gets (Below p'.left) (step done) p') :
    Gets (Ahead p.left) (untilRound close step done) p := by
  refine .ifAt working (fun _ _ _ => .succeed trivial) fun p' working' place => ?_
  refine .bind (taken p' working' place) fun a p'' ⟨working'', less⟩ => ?_
  exact .succeed ⟨working'', place ▸ less⟩

theorem leftRound_ahead {next : Attempt Expr} {op? : Kind → Option Operator} {left : Expr}
    (eof : op? .eof = none) (invalid : op? .invalid = none) (working : p.Working)
    (taken : ∀ p', p'.Working → p'.left < p.left → Gets (Below p'.left) next p') :
    Gets (Ahead p.left) (leftRound next op? left) p := by
  refine .look working fun t p₁ working₁ place more => ?_
  cases found : op? t.kind with
  | none => exact .succeed trivial
  | some op =>
    have there : p₁.left ≠ 0 := by
      refine more (fun ends => ?_) fun broken => ?_
      · rw [ends, eof] at found
        cases found
      · rw [broken, invalid] at found
        cases found
    refine .advance working₁ there fun _ p₂ working₂ less => ?_
    refine .bind (taken p₂ working₂ (place ▸ less)) fun right p₃ ⟨working₃, less'⟩ => ?_
    exact .succeed ⟨working₃, place ▸ Nat.lt_trans less' less⟩

/-- A round that takes the next token, which is there, and goes on. -/
theorem taken_ahead {n : Nat} {s : σ} (working : p.Working) (more : p.left ≠ 0) (place : p.left = n) :
    Gets (Ahead (α := α) n) (Attempt.advance >>= fun _ => Attempt.succeed (.again s)) p :=
  .advance working more fun _ _ working' less => .succeed ⟨working', place ▸ less⟩

theorem headerRound_ahead {kind : BlockKind} (working : p.Working) :
    Gets (Ahead p.left) (headerRound kind ()) p := by
  refine .look working fun t p' working' place more => ?_
  cases found : t.kind with
  | eof | invalid => exact .unexpected
  | symbol s =>
    have there := more (by simp [found]) (by simp [found])
    cases s with
    | lbrace => exact .succeed trivial
    | rbrace | semicolon => exact .unexpected
    | _ => exact taken_ahead working' there place
  | _ => exact taken_ahead working' (more (by simp [found]) (by simp [found])) place

theorem bodyRound_ahead {kind : BlockKind} {opening : Span} {depth : Nat} (working : p.Working) :
    Gets (Ahead p.left) (bodyRound kind opening depth) p := by
  cases depth with
  | zero => exact .succeed trivial
  | succ depth =>
    refine .look working fun t p' working' place more => ?_
    cases found : t.kind with
    | eof | invalid => exact .fail
    | symbol s =>
      have there := more (by simp [found]) (by simp [found])
      cases s <;> exact taken_ahead working' there place
    | _ => exact taken_ahead working' (more (by simp [found]) (by simp [found])) place

end Ahead
end Attempt

/-! ## Loops -/

namespace Parser

section Loops

variable {σ α : Type} {n : Nat} {p : Parser}

/-- The step comes to what the loop of the rounds comes to from the state, with no count; every round
that goes on takes a token at least. -/
def Loops (body : σ → Attempt (Turn σ α)) (s : σ) (x : Attempt α) (p : Parser) : Prop :=
  Terminates (Attempt.turn body) (fun s => s.2.left) (s, p) (x p)

theorem Loops.of_rounds {loop : Nat → σ → Attempt α} {body : σ → Attempt (Turn σ α)}
    (unrolls : Attempt.Unrolls loop body)
    (ahead : ∀ s (p : Parser), p.Working → p.left < n →
      Attempt.Gets (Attempt.Ahead p.left) (body s) p)
    (working : p.Working) (less : p.left < n) (s : σ) :
    p.Loops body s (Attempt.bounded fun rounds => loop rounds s) := by
  let counted (rounds : Nat) (s : σ × Parser) : Option α × Parser := loop rounds s.1 s.2
  let good (s : σ × Parser) : Prop := s.2.Working ∧ s.2.left < n
  refine Terminates.of_counted counted good unrolls.turn ?_ p.bound (s, p) ⟨working, less⟩
    working.bound
  rintro ⟨s, p⟩ ⟨s', p'⟩ ⟨working, less⟩ again
  obtain ⟨working', less'⟩ := ahead s p working less (Attempt.run_of_turn again)
  exact ⟨⟨working', Nat.lt_trans less' less⟩, less'⟩

end Loops
end Parser
end CircuitCompiler
