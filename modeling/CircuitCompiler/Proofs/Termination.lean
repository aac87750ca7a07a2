import CircuitCompiler.Proofs.Loops
import CircuitCompiler.Proofs.Resuming

/-!
# Termination of the front end

Cutting a file and reading it as a sequence of components come to an end for every sequence of bytes.
The loop that reads components reads one in each round, and so takes a token; within a component the
loops and calls of the grammar end as well.

* `Parser.componentsRound`: a round of the loop that reads components;
* `front_end_terminates`: the loops come to the chunks of the file and to its design.
-/

namespace CircuitCompiler

namespace Parser

/-- A round of the loop that reads components: another component, which is added to the design, or
the end of the source. -/
def componentsRound (file : Nat) :
    Design × Parser → Turn (Design × Parser) (Except CompileError Design × Parser) :=
  fun (d, p) =>
    let (t, p₁) := Attempt.ask Lexer.peek p
    if t.kind = .eof then .leave (.ok d, p₁)
    else
      match p₁.fresh.component file with
      | (.error e, p₂) => .leave (.error e, p₂)
      | (.ok c, p₂) =>
        match d.add? c with
        | some d' => .again (d', p₂)
        | none =>
          let e : CompileError := ⟨.duplicateComponent c.name, c.nameSpan⟩
          .leave (.error e, { p₂ with reported := p₂.reported ++ [e.diagnostic []] })

variable {p p' : Parser} {d d' : Design}

theorem components_unroll (file n : Nat) (s : Design × Parser) :
    s.2.components file (n + 1) s.1 =
      (componentsRound file s).result fun s' => s'.2.components file n s'.1 := by
  obtain ⟨d, p⟩ := s
  simp only [components, componentsRound]
  split
  · rfl
  · generalize (Attempt.ask Lexer.peek p).2.fresh.component file = run
    obtain ⟨_ | c, p₂⟩ := run
    · rfl
    · dsimp only
      cases d.add? c <;> rfl

/-- A component that was read has taken a token. -/
theorem componentsRound_ahead {file : Nat} (working : p.Working)
    (again : componentsRound file (d, p) = .again (d', p')) : p'.Working ∧ p'.left < p.left := by
  obtain ⟨range, n, r, follows⟩ := working
  have asked : (Attempt.ask Lexer.peek p).1.kind = r.current.kind := follows.gives.peek.1
  simp only [componentsRound, asked] at again
  by_cases ended : r.current.kind = .eof
  · rw [if_pos ended] at again
    cases again
  · rw [if_neg ended] at again
    have outcome : Outcome range r.tokens.length
        ((Attempt.ask Lexer.peek p).2.fresh.component file) (Parse.component file r.fresh) :=
      fresh_outcome follows.tight ended
    generalize (Attempt.ask Lexer.peek p).2.fresh.component file = ours at again outcome
    generalize Parse.component file r.fresh = theirs at outcome
    obtain ⟨result, p₂⟩ := ours
    obtain ⟨result', r₂⟩ := theirs
    obtain ⟨rfl, outcome⟩ : result = result' ∧ _ := outcome
    cases result with
    | error e => cases again
    | ok c =>
      obtain ⟨-, -, follows'⟩ := outcome
      dsimp only at again
      cases added : d.add? c with
      | none =>
        rw [added] at again
        cases again
      | some d₂ =>
        rw [added] at again
        cases again
        refine ⟨follows'.working, ?_⟩
        rw [follows'.left, follows.left]
        exact follows'.few

theorem Working.terminates_components {file rounds : Nat} (working : p.Working)
    (enough : p.left < rounds) :
    Terminates (componentsRound file) (fun s => s.2.left) (d, p) (p.components file rounds d) := by
  let counted (n : Nat) (s : Design × Parser) := s.2.components file n s.1
  refine Terminates.of_counted counted (fun s => s.2.Working) (components_unroll file) ?_ rounds (d, p)
    working enough
  exact fun _ _ working again => componentsRound_ahead working again

/-- The parser that starts to read a file. -/
def start (f : SourceFile) (keepText : Bool) : Parser :=
  ofLexer (.ofFile f false) (f.kept? keepText)

/-- Reading a file comes to its design, or to an error with a cause of its own, however high the counts
of the loops and calls are. -/
theorem components_start (f : SourceFile) (keepText : Bool) {bound : Nat}
    (enough : (start f keepText).left < bound) :
    ({ start f keepText with bound }.components f.id bound {}).1 = Design.parse f keepText ∧
      ∀ e, Design.parse f keepText = .error e → e.cause ≠ .parseFailed := by
  let p : Parser := { start f keepText with bound }
  let r : Reading := .ofStream (.ofCursor (.ofFile f)) (Cursor.ofFile f).point (f.kept? keepText)
  have begun : (start f keepText).Follows (Cursor.ofFile f).range (f.content.length + 1) r :=
    follows_ofLexer (Nat.zero_le _) (Nat.le_refl _)
  have counted : r.tokens.length < bound := by rwa [begun.left] at enough
  have follows : p.Follows (Cursor.ofFile f).range (f.content.length + 1) r :=
    { begun with gives := begun.gives, bound := counted }
  have run : (p.components f.id bound {}).1 = Design.parseFrom f.id (r.tokens.length + 1) r {} ∧
      Reported (Cursor.ofFile f).range (p.components f.id bound {}).2.reported
        (p.components f.id bound {}).1 :=
    components_reported bound counted (Nat.le_refl _) follows.tight
  obtain ⟨result, reported⟩ := run
  have parsed : (p.components f.id bound {}).1 = Design.parse f keepText := result
  refine ⟨parsed, fun e failed => ?_⟩
  rw [parsed, failed] at reported
  exact reported.1.1

theorem start_working (f : SourceFile) (keepText : Bool) : (start f keepText).Working :=
  Follows.working (follows_ofLexer (Nat.zero_le _) (Nat.le_refl _))

end Parser

/-- The front end returns for every sequence of bytes. The loop that cuts a file comes to its chunks,
and the loop that reads components to its design, with fewer bytes or tokens to come in every round.
The counts that bound what runs are never spent, however high they are. And wherever a parser is at
work, each loop and each call within a component ends: looks and changes of scope keep its place,
and every round takes a token. -/
theorem front_end_terminates (f : SourceFile) (keepText : Bool) :
    (∃ s : Chunk.Cutting, Chunk.split f = Chunk.between f 0 s.cuts ∧
      Terminates (Chunk.cuttingRound f) (fun s => s.1.bytesLeft) (.ofFile f false, {}) s) ∧
    (∃ behind, Terminates (Parser.componentsRound f.id) (fun s => s.2.left)
      ({}, Parser.start f keepText) (Design.parse f keepText, behind)) ∧
    (∀ e, Design.parse f keepText = .error e → e.cause ≠ .parseFailed) ∧
    (∀ bound, (Parser.start f keepText).left < bound →
      ({ Parser.start f keepText with bound }.components f.id bound {}).1 =
        Design.parse f keepText) ∧
    (Parser.start f keepText).Working ∧ ∀ p : Parser, p.Working → p.Moves ∧ p.LoopsEnd := by
  let start : Parser := Parser.start f keepText
  have working : start.Working := Parser.start_working f keepText
  obtain ⟨s, cuts, cutting⟩ := Chunk.cutting_terminates f
  have reading : Terminates (Parser.componentsRound f.id) (fun s => s.2.left) ({}, start)
      (start.components f.id start.bound {}) := working.terminates_components working.bound
  have counted (bound : Nat) (enough : start.left < bound) :
      ({ start with bound }.components f.id bound {}).1 = Design.parse f keepText :=
    (Parser.components_start f keepText enough).1
  refine ⟨⟨s, by rw [cuts]; rfl, cutting⟩, ⟨(start.components f.id start.bound {}).2, ?_⟩,
    (Parser.components_start f keepText working.bound).2, counted, working, ?_⟩
  · rw [← counted start.bound working.bound]
    exact reading
  · exact fun p working => ⟨working.moves, working.loopsEnd⟩

/-- A parser that starts to read a text, in which it comes to a fault, is at work. -/
theorem front_end_terminates_fault :
    (Parser.start ⟨0, "", Bytes.ofString "component A \x7b $", 0⟩ false).Moves ∧
      (Parser.start ⟨0, "", Bytes.ofString "component A \x7b $", 0⟩ false).LoopsEnd :=
  have whole := front_end_terminates ⟨0, "", Bytes.ofString "component A \x7b $", 0⟩ false
  whole.2.2.2.2.2 _ whole.2.2.2.2.1

end CircuitCompiler
